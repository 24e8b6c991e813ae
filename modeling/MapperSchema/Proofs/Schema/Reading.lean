import MapperSchema.Proofs.Compiler.Matching
import MapperSchema.Proofs.Table.Order
import MapperSchema.Schema.Rendering

/-! Reading rendered definitions back. A rendering shows everything of a definition but its paths
and what becomes of unknown keys, as long as no option takes the place of a type. -/
namespace MapperSchema

/-- Induction on fields, with the fields inside a type taken one by one. -/
theorem Field.induct {motive : Field → Prop}
    (primitive : ∀ path p options, motive ⟨path, .primitive p, options⟩)
    (array : ∀ path items options, motive items → motive ⟨path, .array items, options⟩)
    (document : ∀ path schema options, (∀ entry ∈ schema.fields, motive entry.2) →
      motive ⟨path, .document schema, options⟩)
    (field : Field) : motive field :=
  Field.rec (motive_1 := motive)
    (motive_2 := fun type => ∀ path options, motive ⟨path, type, options⟩)
    (motive_3 := fun schema => ∀ entry ∈ schema.fields, motive entry.2)
    (motive_4 := fun fields => ∀ entry ∈ fields, motive entry.2)
    (motive_5 := fun entry => motive entry.2)
    (fun path _ options h => h path options)
    (fun p path options => primitive path p options)
    (fun items h path options => array path items options h)
    (fun schema h path options => document path schema options h)
    (fun _ _ _ _ h => h)
    (by simp) (fun _ _ head tail => List.forall_mem_cons.2 ⟨head, tail⟩)
    (fun _ _ h => h) field

/-- The option that takes the place of the type. -/
def Field.typeOption? (f : Field) : Option Value := f.options.get? (.text "type")

/-- No field at any depth has an option in the place of its type. -/
def Schema.Legible (d : Schema) : Prop := ∀ f, d.Holds f → f.typeOption? = none

theorem Table.rows_single_merge {κ α : Type} [BEq κ] [EquivBEq κ] (k : κ) (v : α) (t : Table κ α) :
    ((single k v).merge t).rows = (k, (t.get? k).getD v) :: (t.erase k).rows := by
  have rest : t.rows.filter (fun row => !(single k v).contains row.1) = (t.erase k).rows := by
    apply List.filter_congr
    intro row _
    by_cases h : row.1 == k
    · simp [contains, h, BEq.symm h]
    · have other : (k == row.1) = false := by rw [BEq.comm]; simpa using h
      simp [contains, h, other]
  rw [rows_merge, rest]
  rfl

theorem Table.erase_of_get? {κ α : Type} [BEq κ] {t : Table κ α} {k : κ} (h : t.get? k = none) :
    t.erase k = t := by
  apply ext
  rw [get?_eq_none_iff, List.any_eq_false] at h
  exact List.filter_eq_self.2 fun row mem => by simpa using h row mem

/-- The type, or the option in its place, comes first and then all other options. -/
theorem Field.render_eq (f : Field) : f.render =
    .mapping ((.text "type", f.typeOption?.getD f.type.render) ::
      (f.options.erase (.text "type")).rows) := by
  obtain ⟨path, type, options⟩ := f
  rw [Field.render, Table.toValue, Table.rows_single_merge]
  rfl

theorem Schema.renderFields_eq_map (fields : List (String × Field)) :
    Schema.renderFields fields = fields.map fun field => (.text field.1, field.2.render) := by
  induction fields with
  | nil => simp [Schema.renderFields]
  | cons field rest ih => simp [Schema.renderFields, ih]

mutual
/-- The field without its path, and without those inside it. -/
def Field.bare : Field → Field
  | ⟨_, type, options⟩ => ⟨[], FieldType.bare type, options⟩

def FieldType.bare : FieldType → FieldType
  | .primitive p => .primitive p
  | .array items => .array (Field.bare items)
  | .document schema => .document (Schema.bare schema)

/-- The definition without paths and without what it says of unknown keys, at any depth. -/
def Schema.bare : Schema → Schema
  | ⟨_, fields, options, _⟩ => ⟨[], bareFields fields, options, none⟩

def bareFields : List (String × Field) → List (String × Field)
  | [] => []
  | (name, field) :: rest => (name, Field.bare field) :: bareFields rest
end

theorem bareFields_eq_map (fields : List (String × Field)) :
    bareFields fields = fields.map fun field => (field.1, field.2.bare) := by
  induction fields with
  | nil => simp [bareFields]
  | cons field rest ih => simp [bareFields, ih]

theorem renderFields_bareFields {fields : List (String × Field)}
    (h : ∀ entry ∈ fields, entry.2.bare.render = entry.2.render) :
    Schema.renderFields (bareFields fields) = Schema.renderFields fields := by
  rw [bareFields_eq_map, Schema.renderFields_eq_map, Schema.renderFields_eq_map, List.map_map]
  apply List.map_congr_left
  intro entry mem
  rw [Function.comp_apply, h entry mem]

/-- Paths do not show in a rendering, nor does what a definition says of unknown keys. -/
theorem Field.render_bare (f : Field) : f.bare.render = f.render := by
  induction f using Field.induct with
  | primitive path p options => simp only [Field.bare, FieldType.bare, Field.render]
  | array path items options ih =>
    simp only [Field.bare, FieldType.bare, Field.render, FieldType.render, ih]
  | document path schema options ih =>
    obtain ⟨place, fields, schemaOptions, unknownKeys⟩ := schema
    simp only [Field.bare, FieldType.bare, Schema.bare, Field.render, FieldType.render,
      Schema.render, renderFields_bareFields ih]

theorem Schema.parts_bare (d : Schema) : d.bare.parts = d.parts := by
  obtain ⟨path, fields, options, unknownKeys⟩ := d
  have rows := renderFields_bareFields fun entry (_ : entry ∈ fields) => entry.2.render_bare
  simp only [Schema.bare, Schema.parts, rows]

def Primitive.ofName? : String → Option Primitive
  | "String" => some .string
  | "Number" => some .number
  | "Boolean" => some .boolean
  | "Date" => some .date
  | "Mixed" => some .mixed
  | _ => none

@[simp] theorem Primitive.ofName?_name (p : Primitive) : ofName? p.name = some p := by
  cases p <;> rfl

/-- The options among rows of general keys. -/
def Options.ofRows (rows : List (Key × Value)) : Options :=
  Table.ofList (rows.filterMap fun
    | (.text name, v) => some (name, v)
    | _ => none)

/-- The definition with these fields and these rows of options. -/
def Schema.ofRead (options : List (Key × Value)) (fields : List (String × Field)) : Schema :=
  ⟨[], fields, Options.ofRows options, none⟩

mutual
/-- Reads a rendered field: its type from the first row and its options from the others. -/
def Value.toField? : Value → Option Field
  | .mapping ((.text "type", type) :: options) =>
    (Value.toFieldType? type).map fun type => ⟨[], type, Table.ofList options⟩
  | _ => none

def Value.toFieldType? : Value → Option FieldType
  | .text name => (Primitive.ofName? name).map .primitive
  | .list [items] => (Value.toField? items).map .array
  | .mapping [(.text "definition", .mapping fields), (.text "options", .mapping options)] =>
    (Value.toFields? fields).map fun fields => .document (.ofRead options fields)
  | _ => none

def Value.toFields? : List (Key × Value) → Option (List (String × Field))
  | [] => some []
  | (.text name, field) :: rest =>
    (Value.toField? field).bind fun field => (Value.toFields? rest).map ((name, field) :: ·)
  | _ => none
end

/-- Reads what a constructor of mapper schemas is given. -/
def Schema.ofParts? : Value × Value → Option Schema
  | (.mapping fields, .mapping options) => (Value.toFields? fields).map (.ofRead options)
  | _ => none

theorem Options.ofRows_textKeys (t : Options) : Options.ofRows t.textKeys.rows = t := by
  have rows : t.textKeys.rows.filterMap (fun
      | (.text name, v) => some (name, v)
      | _ => none) = t.rows := by
    change (t.rows.map _).filterMap _ = _
    rw [List.filterMap_map]
    exact List.filterMap_some
  rw [Options.ofRows, rows, Table.ofList_rows]

theorem toFields?_renderFields {fields : List (String × Field)}
    (h : ∀ entry ∈ fields, entry.2.render.toField? = some entry.2.bare) :
    Value.toFields? (Schema.renderFields fields) = some (bareFields fields) := by
  induction fields with
  | nil => rfl
  | cons entry rest ih =>
    obtain ⟨head, tail⟩ := List.forall_mem_cons.1 h
    rw [Schema.renderFields, Value.toFields?, head, ih tail, bareFields]
    rfl

/-- A field is read back once its type is. -/
theorem toField?_render_of_type {f : Field} (own : f.typeOption? = none)
    (type : f.type.render.toFieldType? = some f.type.bare) : f.render.toField? = some f.bare := by
  rw [Field.render_eq, own, Option.getD_none, Table.erase_of_get? own, Value.toField?, type,
    Table.ofList_rows]
  obtain ⟨path, type, options⟩ := f
  rw [Field.bare]
  rfl

/-- Every field that is held is read back: those inside it are held as well, so that none of them
has an option in the way. -/
theorem toField?_render {d : Schema} (legible : d.Legible) {f : Field} (held : d.Holds f) :
    f.render.toField? = some f.bare := by
  induction f using Field.induct with
  | primitive path p options =>
    refine toField?_render_of_type (legible _ held) ?_
    simp [FieldType.render, Value.toFieldType?, FieldType.bare]
  | array path items options ih =>
    refine toField?_render_of_type (legible _ held) ?_
    simp [FieldType.render, Value.toFieldType?, FieldType.bare, ih (.items held rfl)]
  | document path schema options ih =>
    refine toField?_render_of_type (legible _ held) ?_
    obtain ⟨place, fields, schemaOptions, unknownKeys⟩ := schema
    have read := toFields?_renderFields fun entry mem => ih entry mem (.inner held rfl mem)
    simp [FieldType.render, Schema.render, Value.ofOptions, Table.toValue, Value.toFieldType?,
      FieldType.bare, Schema.bare, Schema.ofRead, Options.ofRows_textKeys, read]

/-- What is read back from a rendered definition is the definition, but for its paths and for what
it says of unknown keys. -/
theorem ofParts?_parts {d : Schema} (legible : d.Legible) :
    Schema.ofParts? d.parts = some d.bare := by
  obtain ⟨path, fields, options, unknownKeys⟩ := d
  have read := toFields?_renderFields fun entry mem =>
    toField?_render legible (.entry (d := ⟨path, fields, options, unknownKeys⟩) mem)
  simp [Schema.parts, Value.ofOptions, Table.toValue, Schema.ofParts?, Schema.bare, Schema.ofRead,
    Options.ofRows_textKeys, read]

end MapperSchema
