import MapperSchema.Proofs.Compiler.Visits

/-! The visited positions from the top down: the entries of the root, and what is found in them.
They are the positions that a compile goes through. -/
namespace MapperSchema.Compiler

/-- Entries of the root object, of objects found inside, and elements of arrays. Nothing is found
in a union. -/
inductive Visited (c : Compiler) (root : Node) (extra : Option Annotation) (path : Path) :
    Position → Prop
  | entry {shape entry} (base : root.unwrap.form = .object shape) (mem : entry ∈ shape) :
    Visited c root extra path (entryAt path (c.effective root.unwrap.id extra) entry)
  | inner {p shape entry} (outer : Visited c root extra path p)
    (base : p.node.unwrap.form = .object shape) (mem : entry ∈ shape) :
    Visited c root extra path (entryAt p.path (c.store.annotationAt p.node.unwrap.id) entry)
  | element {p element} (outer : Visited c root extra path p)
    (base : p.node.unwrap.form = .array element) :
    Visited c root extra path (elementAt p.path element)

variable {c : Compiler} {root : Node} {extra : Option Annotation} {path : Path}

theorem Visited.of_mem_visits : ∀ {q : Position} {home : Option Path} {p : Position},
    c.Visited root extra path q → p ∈ positions (c.visits home q.path q.node) →
    c.Visited root extra path p := by
  rintro ⟨at_, overrides, node⟩
  induction node using Node.inductUnwrapped generalizing at_ overrides with
  | object node shape base ih =>
    intro home p hq hp
    rw [visits_object c home at_ base, mem_positions_schemaVisits] at hp
    obtain ⟨entry, mem, hp⟩ := hp
    have he : c.Visited root extra path (entryAt at_ _ entry) := .inner hq base mem
    rcases (mem_positions_fieldVisits _ _ _ _).1 hp with hp | rfl
    · exact ih entry mem _ _ he hp
    · exact he
  | array node element base ih =>
    intro home p hq hp
    rw [visits_array c home at_ base] at hp
    have he : c.Visited root extra path (elementAt at_ element) := .element hq base
    rcases (mem_positions_fieldVisits _ _ _ _).1 hp with hp | rfl
    · exact ih _ _ he hp
    · exact he
  | leaf node leaf =>
    intro home p _ hp
    rw [visits_leaf c home at_ leaf] at hp
    cases hp

/-- What is visited up to the end of a visited field is part of the whole. -/
theorem Visited.visits_subset {q : Position} (h : c.Visited root extra path q) :
    ∃ home, ∀ p ∈ positions (c.fieldVisits home q),
      p ∈ positions (c.rootVisits root extra path) := by
  induction h with
  | @entry shape entry base mem =>
    refine ⟨some path, fun p hp => ?_⟩
    rw [rootVisits, base]
    exact (mem_positions_schemaVisits _ _ _ _ _).2 ⟨entry, mem, hp⟩
  | @inner q shape entry outer base mem ih =>
    obtain ⟨home, sub⟩ := ih
    refine ⟨some q.path, fun p hp => sub p ?_⟩
    rw [mem_positions_fieldVisits, visits_object c home q.path base]
    exact .inl ((mem_positions_schemaVisits _ _ _ _ _).2 ⟨entry, mem, hp⟩)
  | @element q element outer base ih =>
    obtain ⟨home, sub⟩ := ih
    refine ⟨home, fun p hp => sub p ?_⟩
    rw [mem_positions_fieldVisits, visits_array c home q.path base]
    exact .inl hp

/-- The positions found from the top down are those that the compile goes through. -/
theorem mem_positions_rootVisits_iff {p : Position} :
    p ∈ positions (c.rootVisits root extra path) ↔ c.Visited root extra path p := by
  constructor
  · intro hp
    unfold rootVisits at hp
    split at hp
    next shape base =>
      obtain ⟨entry, mem, hp⟩ := (mem_positions_schemaVisits _ _ _ _ _).1 hp
      have he : c.Visited root extra path (entryAt path _ entry) := .entry base mem
      rcases (mem_positions_fieldVisits _ _ _ _).1 hp with hp | rfl
      · exact he.of_mem_visits hp
      · exact he
    next => cases hp
  · intro h
    obtain ⟨home, sub⟩ := h.visits_subset
    exact sub p ((mem_positions_fieldVisits _ _ _ _).2 (.inr rfl))

end MapperSchema.Compiler
