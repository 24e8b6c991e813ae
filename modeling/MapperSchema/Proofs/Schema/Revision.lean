import MapperSchema.Proofs.Schema.Reading

/-! Changes at one place of a definition. The rendering changes at the same place and nowhere else,
or not at all if an option hides that place. -/
namespace MapperSchema

/-- One step into a type: to an entry of a document, counted in declared order, or to the items of
an array. -/
inductive Turn where
  | entry (i : Nat)
  | items

def FieldType.turn? : Turn → FieldType → Option Field
  | .entry i, .document schema => schema.fields[i]?.map (·.2)
  | .items, .array items => some items
  | _, _ => none

def Schema.onField (g : Field → Field) (i : Nat) (d : Schema) : Schema :=
  { d with fields := d.fields.modify i (Prod.map id g) }

def FieldType.onTurn (g : Field → Field) : Turn → FieldType → FieldType
  | .entry i, .document schema => .document (schema.onField g i)
  | .items, .array items => .array (g items)
  | _, type => type

/-- The field at the end of a way. -/
def Field.reach? : List Turn → Field → Option Field
  | [], f => some f
  | turn :: way, f => (f.type.turn? turn).bind (Field.reach? way)

/-- The field with a change at the end of a way. -/
def Field.revise (g : Field → Field) : List Turn → Field → Field
  | [], f => g f
  | turn :: way, f => { f with type := f.type.onTurn (Field.revise g way) turn }

/-- On the way no option stands in the place of a type. -/
def Field.Shows : List Turn → Field → Prop
  | [], _ => True
  | turn :: way, f => f.typeOption? = none ∧ ∀ x, f.type.turn? turn = some x → x.Shows way

def Schema.reach? (d : Schema) (i : Nat) (way : List Turn) : Option Field :=
  d.fields[i]?.bind (·.2.reach? way)

def Schema.revise (g : Field → Field) (i : Nat) (way : List Turn) : Schema → Schema :=
  Schema.onField (Field.revise g way) i

def Schema.Shows (d : Schema) (i : Nat) (way : List Turn) : Prop :=
  ∀ entry, d.fields[i]? = some entry → entry.2.Shows way

/-- The field without an option in the place of its type. -/
def Field.untyped (f : Field) : Field := { f with options := f.options.erase (.text "type") }

namespace Value

/-- A mapping with a change in one of its rows. -/
def onRow (g : Value → Value) (i : Nat) : Value → Value
  | .mapping rows => .mapping (rows.modify i (Prod.map id g))
  | v => v

/-- A rendered type with a change one step further in. The rendered fields of a document are in the
first of its two rows. -/
def onTurn (g : Value → Value) : Turn → Value → Value
  | .entry i, type => type.onRow (onRow g i) 0
  | .items, .list items => .list (items.map g)
  | .items, type => type

/-- A rendered field with a change at the end of a way. The type is in the first row. -/
def revise (g : Value → Value) : List Turn → Value → Value
  | [], v => g v
  | turn :: way, v => v.onRow (onTurn (revise g way) turn) 0

@[simp] theorem onRow_id (i : Nat) (v : Value) : v.onRow id i = v := by
  cases v <;> simp [onRow]

theorem onTurn_id (turn : Turn) (type : Value) : type.onTurn id turn = type := by
  cases turn with
  | entry i =>
    have same : onRow id i = id := funext (onRow_id i)
    rw [onTurn, same, onRow_id]
  | items => cases type <;> simp [onTurn]

end Value

variable {g : Field → Field} {h : Value → Value}

theorem renderFields_modify {fields : List (String × Field)} {i : Nat}
    (place : ∀ entry, fields[i]? = some entry → entry.2.render = h (g entry.2).render) :
    Schema.renderFields fields =
      (Schema.renderFields (fields.modify i (Prod.map id g))).modify i (Prod.map id h) := by
  induction fields generalizing i with
  | nil => simp [Schema.renderFields]
  | cons entry rest ih =>
    cases i with
    | zero => simp [Schema.renderFields, place entry rfl]
    | succ i => simpa [Schema.renderFields] using ih place

theorem render_onTurn {turn : Turn} {type : FieldType}
    (place : ∀ x, type.turn? turn = some x → x.render = h (g x).render) :
    type.render = (type.onTurn g turn).render.onTurn h turn := by
  cases turn with
  | entry i =>
    cases type with
    | document schema =>
      obtain ⟨path, fields, options, unknownKeys⟩ := schema
      have rows := renderFields_modify fun entry (found : fields[i]? = some entry) =>
        place entry.2 (by rw [FieldType.turn?, found]; rfl)
      simp only [FieldType.onTurn, Schema.onField, FieldType.render, Schema.render, Value.onTurn,
        Value.onRow, List.modify_zero_cons, Prod.map, id, ← rows]
    | _ => simp only [FieldType.onTurn, FieldType.render, Value.onTurn, Value.onRow]
  | items =>
    cases type with
    | array items =>
      simp only [FieldType.onTurn, FieldType.render, Value.onTurn, List.map_cons, List.map_nil,
        place items rfl]
    | primitive p => simp only [FieldType.onTurn, FieldType.render, Value.onTurn]
    | document schema =>
      obtain ⟨path, fields, options, unknownKeys⟩ := schema
      simp only [FieldType.onTurn, FieldType.render, Schema.render, Value.onTurn]

/-- A change that shows in the field at the end of a way shows there in the rendering, and all else
is rendered as before: further out only the type changes at each turn. -/
theorem render_revise {way : List Turn} {f : Field} (shows : f.Shows way)
    (place : ∀ x, f.reach? way = some x → x.render = h (g x).render) :
    f.render = (f.revise g way).render.revise h way := by
  induction way generalizing f with
  | nil => exact place f rfl
  | cons turn way ih =>
    obtain ⟨own, inner⟩ := shows
    have type : f.type.render =
        (f.type.onTurn (Field.revise g way) turn).render.onTurn (Value.revise h way) turn := by
      apply render_onTurn
      intro x found
      refine ih (inner x found) fun y reached => place y ?_
      rw [Field.reach?, found]
      exact reached
    have own' : (f.revise g (turn :: way)).typeOption? = none := own
    rw [Field.render_eq, Field.render_eq (f.revise g (turn :: way)), own, own', Option.getD_none,
      Option.getD_none, type]
    rfl

/-- What an option hides may be changed without any effect. -/
theorem render_revise_of_hidden {way : List Turn} {f : Field} (hidden : ¬f.Shows way) :
    f.render = (f.revise g way).render := by
  induction way generalizing f with
  | nil => exact absurd trivial hidden
  | cons turn way ih =>
    have own' : (f.revise g (turn :: way)).typeOption? = f.typeOption? := rfl
    rw [Field.render_eq, Field.render_eq (f.revise g (turn :: way)), own']
    cases own : f.typeOption? with
    | some v => rfl
    | none =>
      have type : f.type.render = (f.type.onTurn (Field.revise g way) turn).render := by
        rw [← Value.onTurn_id turn (f.type.onTurn (Field.revise g way) turn).render]
        apply render_onTurn
        intro x found
        refine ih fun shows => hidden ⟨own, fun y found' => ?_⟩
        cases found.symm.trans found'
        exact shows
      rw [Option.getD_none, Option.getD_none, type]
      rfl

namespace Schema

variable {d : Schema} {i : Nat} {way : List Turn}

theorem parts_revise (shows : d.Shows i way)
    (place : ∀ x, d.reach? i way = some x → x.render = h (g x).render) :
    d.parts = ((d.revise g i way).parts.1.onRow (Value.revise h way) i,
      (d.revise g i way).parts.2) := by
  have rows := renderFields_modify (g := Field.revise g way) (h := Value.revise h way) (i := i)
    fun entry (found : d.fields[i]? = some entry) =>
      render_revise (shows entry found) fun x reached => place x (by
        rw [reach?, found]
        exact reached)
  exact Prod.ext (congrArg Value.mapping rows) rfl

theorem parts_revise_of_hidden (hidden : ¬d.Shows i way) : d.parts = (d.revise g i way).parts := by
  have rows : renderFields d.fields = renderFields (d.revise g i way).fields := by
    have modified := renderFields_modify (g := Field.revise g way) (h := id) (i := i)
      fun entry (found : d.fields[i]? = some entry) =>
        render_revise_of_hidden fun shows => hidden fun entry' found' => by
          cases found.symm.trans found'
          exact shows
    rw [Prod.map_id, List.modify_id] at modified
    exact modified
  exact Prod.ext (congrArg Value.mapping rows) rfl

end Schema

/-- An option in the place of the type stands in the first row, and all else is as without it. -/
theorem Field.render_untyped {f : Field} {v : Value} (h : f.typeOption? = some v) :
    let rest := (f.options.erase (.text "type")).rows
    f.render = .mapping ((.text "type", v) :: rest) ∧
      f.untyped.render = .mapping ((.text "type", f.type.render) :: rest) := by
  have own : f.untyped.typeOption? = none := by simp [untyped, typeOption?]
  have again : f.untyped.options.erase (.text "type") = f.options.erase (.text "type") :=
    Table.erase_of_get? own
  constructor
  · rw [render_eq, h, Option.getD_some]
  · rw [render_eq, own, again, Option.getD_none]
    rfl

end MapperSchema
