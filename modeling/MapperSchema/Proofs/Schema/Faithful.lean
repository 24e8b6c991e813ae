import MapperSchema.Proofs.Schema.Revision

/-! Rendering is faithful: it can be read back, so that it loses nothing but paths and what becomes
of unknown keys. An option named `type` displaces the type of its own field and of no other. -/
namespace MapperSchema.Schema

/-- A legible rendering is read back to the definition without its paths. An option in the place of
a type shows as the first row of its field. The rest of the rendering is that of the definition
without this option, whether the field shows in it or is itself displaced by another such option. -/
theorem rendering_faithful :
    (∀ d : Schema, d.Legible → ofParts? d.parts = some d.bare) ∧
      (∀ d e : Schema, d.Legible → e.Legible → (d.parts = e.parts ↔ d.bare = e.bare)) ∧
      ∀ (d : Schema) i way f v, d.reach? i way = some f → f.typeOption? = some v →
        let rest := (f.options.erase (.text "type")).rows
        let others := (d.revise Field.untyped i way).parts
        (f.render = .mapping ((.text "type", v) :: rest) ∧
            f.untyped.render = .mapping ((.text "type", f.type.render) :: rest)) ∧
          (d.Shows i way → d.parts =
            (others.1.onRow (Value.revise (Value.onRow (fun _ => v) 0) way) i, others.2)) ∧
          (¬d.Shows i way → d.parts = others) := by
  refine ⟨fun d => ofParts?_parts, fun d e legible legible' => ⟨fun same => ?_, fun same => ?_⟩, ?_⟩
  · have read := ofParts?_parts legible
    rw [same, ofParts?_parts legible'] at read
    exact (Option.some.inj read).symm
  · rw [← parts_bare d, same, parts_bare]
  · intro d i way f v reached given rest others
    refine ⟨Field.render_untyped given, fun shows => ?_, parts_revise_of_hidden⟩
    apply parts_revise shows
    intro x reached'
    cases reached.symm.trans reached'
    obtain ⟨typed, untyped⟩ := Field.render_untyped given
    rw [typed, untyped]
    rfl

/-- Prices whose items are to be decimals, rendered as they are without that option but for one
row; and the prices without it, which are read back. -/
theorem rendering_faithful_prices :
    let options : Bag := Table.ofList [(.text "required", .bool true),
      (.text "type", .text "Decimal"), (.text "min", .int 0)]
    let price : Field := ⟨["prices", "$"], .primitive .number, options⟩
    let prices (item : Field) : Field :=
      ⟨["prices"], .array item, Table.single (.text "required") (.bool true)⟩
    let d (item : Field) : Schema :=
      ⟨[], [("prices", prices item)], Table.single "strict" (.bool true), some .strip⟩
    (d price.untyped).Legible ∧ ofParts? (d price.untyped).parts = some (d price.untyped).bare ∧
      (d price).reach? 0 [.items] = some price ∧ (d price).Shows 0 [.items] ∧
      price.render = .mapping [(.text "type", .text "Decimal"), (.text "required", .bool true),
        (.text "min", .int 0)] ∧
      (d price).parts = ((d price.untyped).parts.1.onRow
        (Value.revise (Value.onRow (fun _ => .text "Decimal") 0) [.items]) 0,
        (d price.untyped).parts.2) := by
  intro options price prices d
  obtain ⟨read, -, displaced⟩ := rendering_faithful
  have legible : (d price.untyped).Legible := by
    have fields : ∀ f, (d price.untyped).Holds f →
        f = prices price.untyped ∨ f = price.untyped := by
      intro f held
      induction held with
      | entry mem => exact .inl (congrArg Prod.snd (List.mem_singleton.1 mem))
      | inner outer type mem ih => rcases ih with rfl | rfl <;> cases type
      | items outer type ih =>
        rcases ih with rfl | rfl
        · cases type
          exact .inr rfl
        · cases type
    intro f held
    rcases fields f held with rfl | rfl <;> rfl
  have shows : (d price).Shows 0 [.items] := by
    intro entry found
    cases found
    exact ⟨rfl, fun _ _ => trivial⟩
  obtain ⟨⟨row, -⟩, shown, -⟩ := displaced (d price) 0 [.items] price (.text "Decimal") rfl rfl
  exact ⟨legible, read _ legible, rfl, shows, row, shown shows⟩

end MapperSchema.Schema
