import MapperSchema.Proofs.Compiler.Compiled
import MapperSchema.Proofs.Compiler.Ways

/-! Paths as dotted texts. Where no name has a dot in it, the text of a path tells one field from
all others, and one faulty position too: names that are empty, or that look like the segment of an
element, do not matter. -/
namespace MapperSchema

namespace Path

/-- No segment has a dot in it. -/
def Plain (p : Path) : Prop := ∀ name ∈ p, '.' ∉ name.toList

theorem toList_text (p : Path) : p.text.toList = ['.'].intercalate (p.map String.toList) :=
  String.toList_intercalate

theorem text_append {p q : Path} (hp : p ≠ []) (hq : q ≠ []) :
    (p ++ q).text = p.text ++ "." ++ q.text := String.intercalate_append_of_ne_nil hp hq

/-- A plain path is read back from its text, unless there is nothing to read. -/
theorem Plain.splitOn_text {p : Path} (plain : p.Plain) (ne : p ≠ []) :
    p.text.toList.splitOn '.' = p.map String.toList := by
  have segments : ∀ segment ∈ p.map String.toList, '.' ∉ segment := List.forall_mem_map.2 plain
  rw [toList_text]
  exact List.splitOn_intercalate '.' segments (by simpa using ne)

theorem Plain.eq_of_text {p q : Path} (hp : p.Plain) (hq : q.Plain) (np : p ≠ []) (nq : q ≠ [])
    (same : p.text = q.text) : p = q := by
  have segments : p.map String.toList = q.map String.toList := by
    rw [← hp.splitOn_text np, ← hq.splitOn_text nq, same]
  exact (List.map_inj_right fun _ _ => String.toList_inj.1).1 segments

/-- Below one path, whatever that is, plain paths are told apart by their texts. -/
theorem Plain.eq_of_text_append {place p q : Path} (hp : p.Plain) (hq : q.Plain) (np : p ≠ [])
    (nq : q ≠ []) (same : (place ++ p).text = (place ++ q).text) : p = q := by
  apply hp.eq_of_text hq np nq
  by_cases top : place = []
  · rwa [top, List.nil_append, List.nil_append] at same
  · rw [text_append top np, text_append top nq] at same
    exact (String.append_right_inj _).1 same

end Path

namespace Compiler

variable {c : Compiler} {root : Node} {extra : Option Annotation} {path : Path}

/-- The compile of a root is refused, as a document or as an object schema under a path. -/
inductive Refuses (c : Compiler) (root : Node) : Option Annotation → Path → Fault → Prop
  | schema {extra path fault} (j : Journal)
    (failed : (c.schema root extra path).outcome j = .error fault) :
    Refuses c root extra path fault
  | document {options a fault} (j : Journal) (valid : SchemaOptions.read options = .ok a)
    (failed : (c.compile root options).outcome j = .error fault) : Refuses c root (some a) [] fault

theorem Refuses.result_eq {fault : Fault} (h : c.Refuses root extra path fault) :
    c.result root extra path = .error fault := by
  cases h with
  | schema j failed => rwa [schema_outcome] at failed
  | document j valid failed => rwa [compile_outcome valid] at failed

/-- A fault that is not about the root itself is reported of a visited position. -/
theorem Refuses.reports {fault : Fault} (h : c.Refuses root extra path fault)
    (below : ∀ kind place, fault ≠ .notObject kind place) :
    ∃ p, c.Visited root extra path p ∧ c.Faulty p ∧ c.Reports p fault := by
  rcases result_eq_error_iff.1 h.result_eq with ⟨-, atRoot⟩ | first
  · exact absurd atRoot (below _ _)
  · obtain ⟨before, p, after, visits, -, faulty, reports⟩ := firstFault?_eq_some_iff.1 first
    refine ⟨p, mem_positions_rootVisits_iff.1 ?_, faulty, reports⟩
    rw [visits]
    simp

/-- Fields in a type below a path: their paths go on by the segments of the way to them, and fields
with one text for a path are found on one way, unless a name on the way to one of them has a dot.
The segment of an element has none. -/
structure Addressed (path : Path) (type : FieldType) : Prop where
  path : ∀ way q f, type.Leads way q f → f.path = path ++ q
  apart : ∀ way q f way' q' f', type.Leads way q f → type.Leads way' q' f' → way ≠ way' →
    f.path.text = f'.path.text → ∃ name ∈ q ++ q', '.' ∈ name.toList

theorem Outlines.addressed {type : FieldType} (outlines : c.Outlines path root.unwrap.form type)
    (declared : root.Declared) : Addressed path type where
  path way q f led := by
    obtain ⟨p, -, place, rfl⟩ := outlines.leads led
    exact place
  apart way q f way' q' f' led led' different same := by
    obtain ⟨p, within, place, rfl⟩ := outlines.leads led
    obtain ⟨p', within', place', rfl⟩ := outlines.leads led'
    change p.path.text = p'.path.text at same
    rw [place, place'] at same
    by_contra plain
    push Not at plain
    obtain ⟨first, second⟩ := List.forall_mem_append.1 plain
    cases Path.Plain.eq_of_text_append first second within.ne_nil within'.ne_nil same
    exact different (within.eq_of_segments declared within').1

/-- The fault is reported of one position, and no other field of the root has a path with the text
that is reported. -/
def Pinpoints (c : Compiler) (root : Node) (path : Path) (fault : Fault) : Prop :=
  ∃ way q p, root.unwrap.form.Leads way q p.node ∧ p.path = path ++ q ∧ c.Faulty p ∧
    c.Reports p fault ∧ ∀ way' q' n, root.unwrap.form.Leads way' q' n →
      (path ++ q').text = p.path.text → way' = way

theorem Refuses.pinpoints {fault : Fault} (h : c.Refuses root extra path fault)
    (below : ∀ kind place, fault ≠ .notObject kind place) (declared : root.Declared)
    (plain : ∀ way q n, root.unwrap.form.Leads way q n → q.Plain) :
    c.Pinpoints root path fault := by
  obtain ⟨p, visited, faulty, reports⟩ := h.reports below
  obtain ⟨way, q, led, place⟩ := visited.leads
  refine ⟨way, q, p, led, place, faulty, reports, fun way' q' n led' same => ?_⟩
  rw [place] at same
  cases (plain _ _ _ led').eq_of_text_append (plain _ _ _ led) led'.ne_nil led.ne_nil same
  exact (led'.eq_of_segments declared led).1

/-- In whatever compiles, a definition or a single field, two fields have one text for their paths
only if a name on the way to one of them has a dot. So where no name has one, the path that is
reported with a fault below the root tells the faulty position. -/
theorem dotted_paths_identify (c : Compiler) {root : Node} (declared : root.Declared) :
    (∀ extra path d, c.Compiles root extra path d →
      (∀ f, d.Holds f → ∃ way q, (FieldType.document d).Leads way q f) ∧
        Addressed path (.document d)) ∧
    (∀ a name path j f, (c.field root a name path).outcome j = .ok f → Addressed path f.type) ∧
    ∀ extra path fault, c.Refuses root extra path fault →
      (∀ kind place, fault ≠ .notObject kind place) →
      (∀ way q n, root.unwrap.form.Leads way q n → q.Plain) → c.Pinpoints root path fault := by
  refine ⟨?_, ?_, fun _ _ _ refused below plain => refused.pinpoints below declared plain⟩
  · intro extra path d compiled
    obtain ⟨shape, base, -, rfl⟩ := result_eq_ok_iff.1 compiled.result_eq
    have outlines := c.outlines_object path (c.effective root.unwrap.id extra) shape
    rw [← base] at outlines
    exact ⟨fun f held => held.leads, outlines.addressed declared⟩
  · intro a name path j f ok
    obtain ⟨-, rfl⟩ := field_eq_of_ok ok
    exact (c.outlines_typeOf path root).addressed declared

/-- A name with a dot beside an object, which clash; and labels under the name `$` beside a field
without a name, which do not, so that the path of the wrong label tells its place. -/
theorem dotted_paths_identify_labels :
    let c : Compiler :=
      ⟨(∅ : Store).addToBag 0 (Table.single (.text "required") (.bool false)), true⟩
    let text (id : NodeId) : Node := .base id (.scalar .string)
    let dotted : Node :=
      .base 4 (.object [("a.b", text 1), ("a", .base 3 (.object [("b", text 2)]))])
    let labels : Node := .base 6 (.object [("", text 1), ("$", .base 5 (.array (text 0)))])
    dotted.Declared ∧ labels.Declared ∧
      (∃ d f f', c.Compiles dotted none [] d ∧
        (FieldType.document d).Leads [.entry 0] ["a.b"] f ∧
        (FieldType.document d).Leads [.entry 1, .entry 0] ["a", "b"] f' ∧
        f.path.text = f'.path.text ∧ ∃ name ∈ ["a.b", "a", "b"], '.' ∈ name.toList) ∧
      ∃ fault, c.Refuses labels none [] fault ∧ (∀ kind place, fault ≠ .notObject kind place) ∧
        (∀ way q n, labels.unwrap.form.Leads way q n → q.Plain) ∧ c.Pinpoints labels [] fault := by
  intro c text dotted labels
  have text' : ∀ id, (text id).Declared := fun id => Node.declared_base nofun nofun
  have dotted' : dotted.Declared := by
    have inner : (Node.base 3 (.object [("b", text 2)])).Declared :=
      Node.declared_object (by decide) (List.forall_mem_singleton.2 (text' 2))
    exact Node.declared_object (by decide)
      (List.forall_mem_cons.2 ⟨text' 1, List.forall_mem_singleton.2 inner⟩)
  have labels' : labels.Declared := by
    have array : (Node.base 5 (.array (text 0))).Declared := Node.declared_array (text' 0)
    exact Node.declared_object (by decide)
      (List.forall_mem_cons.2 ⟨text' 1, List.forall_mem_singleton.2 array⟩)
  have clash : ∃ d f f', c.Compiles dotted none [] d ∧
      (FieldType.document d).Leads [.entry 0] ["a.b"] f ∧
      (FieldType.document d).Leads ([.entry 1] ++ [.entry 0]) (["a"] ++ ["b"]) f' :=
    ⟨_, _, _, .schema {} rfl, .one rfl, .on (.one rfl) rfl⟩
  obtain ⟨d, f, f', compiled, first, second⟩ := clash
  have addressed := ((dotted_paths_identify c dotted').1 _ _ _ compiled).2
  have same : f.path.text = f'.path.text := by
    rw [addressed.path _ _ _ first, addressed.path _ _ _ second]
    decide +kernel
  have found : ∀ way q n, labels.unwrap.form.Leads way q n →
      q.Plain ∧ (n = .base 5 (.array (text 0)) ∨ ∃ id, n = text id) := by
    intro way q n led
    induction led with
    | @one turn name n step =>
      match turn with
      | .entry 0 =>
        cases step
        exact ⟨by simp [Path.Plain], .inr ⟨1, rfl⟩⟩
      | .entry 1 =>
        cases step
        exact ⟨by simp [Path.Plain], .inl rfl⟩
    | @on way q outer turn name n led step ih =>
      obtain ⟨plain, rfl | ⟨id, rfl⟩⟩ := ih
      · cases turn with
        | entry i => cases step
        | items =>
          cases step
          exact ⟨List.forall_mem_append.2 ⟨plain, by simp [Path.element]⟩, .inr ⟨0, rfl⟩⟩
      · cases turn <;> cases step
  have plain := fun way q n led => (found way q n led).1
  have refused : c.Refuses labels none [] _ := .schema {} rfl
  have below : ∀ kind place, Fault.requiredConflict ["$", "$"] (.bool false) false false ≠
      .notObject kind place := nofun
  exact ⟨dotted', labels', ⟨d, f, f', compiled, first, second, same,
    addressed.apart _ _ _ _ _ _ first second nofun same⟩, _, refused, below, plain,
    (dotted_paths_identify c labels').2.2 _ _ _ refused below plain⟩

end Compiler

end MapperSchema
