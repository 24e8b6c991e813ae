import Mathlib.Data.List.Pairwise
import MapperSchema.Proofs.Table.Order
import MapperSchema.Settings

/-! Where the value of a setting is found, and which values can be read: the first keyword of its
name, else the variable of its name, in any letter case. -/
namespace MapperSchema

theorem Mode.name_of_ofName? {s : String} {m : Mode} (h : Mode.ofName? s = some m) :
    s = m.name := by
  unfold Mode.ofName? at h
  split at h <;> cases h <;> rfl

namespace Settings

/-- No two variables have one name, letter case aside. -/
def Distinct (env : List (String × String)) : Prop :=
  env.Pairwise fun a b => lower a.1 ≠ lower b.1

/-- The value that is chosen for a setting, if any is. -/
inductive Chosen (env : List (String × String)) (keywords : Options) (setting : String) :
    Option Value → Prop
  | keyword {before row after} (given : keywords.rows = before ++ row :: after)
    (first : ∀ other ∈ before, lower other.1 ≠ setting) (named : lower row.1 = setting) :
    Chosen env keywords setting (some row.2)
  | environment {v} (shown : ∀ row ∈ keywords.rows, lower row.1 ≠ setting) (given : v ∈ env)
    (named : lower v.1 = variablePrefix ++ setting) :
    Chosen env keywords setting (some (.text v.2))
  | missing (shown : ∀ row ∈ keywords.rows, lower row.1 ≠ setting)
    (absent : ∀ v ∈ env, lower v.1 ≠ variablePrefix ++ setting) :
    Chosen env keywords setting none

section Source

variable {env : List (String × String)} {keywords : Options} {setting : String}

/-- Variables with different names stand in the environment as they are given. -/
theorem Distinct.rows_ofList (h : Distinct env) : (Table.ofList env).rows = env := by
  have distinct : env.Pairwise fun a b => (a.1 == b.1) = false := by
    refine h.imp fun apart => ?_
    rw [beq_eq_false_iff_ne]
    exact fun same => apart (congrArg lower same)
  exact congrArg Table.rows (Table.ofList_rows ⟨env, distinct⟩)

theorem Distinct.sublist {env' : List (String × String)} (h : Distinct env)
    (sub : env'.Sublist env) : Distinct env' :=
  List.Pairwise.sublist sub h

theorem Distinct.eq (h : Distinct env) {v w : String × String} (hv : v ∈ env) (hw : w ∈ env)
    (same : lower v.1 = lower w.1) : v = w := by
  have symm : Std.Symm fun a b : String × String => lower a.1 ≠ lower b.1 := ⟨fun _ _ => Ne.symm⟩
  by_contra apart
  exact List.Pairwise.forall h hv hw apart same

theorem fromEnvironment?_eq_none_iff (h : Distinct env) : fromEnvironment? env setting = none ↔
    ∀ v ∈ env, lower v.1 ≠ variablePrefix ++ setting := by
  rw [fromEnvironment?, h.rows_ofList, Option.map_eq_none_iff, List.find?_eq_none]
  simp

theorem fromEnvironment?_eq_some_iff (h : Distinct env) {text : String} :
    fromEnvironment? env setting = some text ↔
      ∃ v ∈ env, lower v.1 = variablePrefix ++ setting ∧ v.2 = text := by
  rw [fromEnvironment?, h.rows_ofList, Option.map_eq_some_iff]
  constructor
  · rintro ⟨v, found, rfl⟩
    have named : lower v.1 = variablePrefix ++ setting := by simpa using List.find?_some found
    exact ⟨v, List.mem_reverse.1 (List.mem_of_find?_eq_some found), named, rfl⟩
  · rintro ⟨v, mem, named, rfl⟩
    cases found : env.reverse.find? fun row => lower row.1 == variablePrefix ++ setting with
    | none =>
      have other := List.find?_eq_none.1 found v (List.mem_reverse.2 mem)
      exact absurd (beq_iff_eq.2 named) other
    | some w =>
      have named' : lower w.1 = variablePrefix ++ setting := by simpa using List.find?_some found
      have mem' : w ∈ env := List.mem_reverse.1 (List.mem_of_find?_eq_some found)
      exact ⟨w, rfl, congrArg Prod.snd (h.eq mem' mem (named'.trans named.symm))⟩

theorem fromKeywords?_eq_none_iff : fromKeywords? keywords setting = none ↔
    ∀ row ∈ keywords.rows, lower row.1 ≠ setting := by
  rw [fromKeywords?, Option.map_eq_none_iff, List.find?_eq_none]
  simp

theorem fromKeywords?_eq_some_iff {v : Value} : fromKeywords? keywords setting = some v ↔
    ∃ before row after, keywords.rows = before ++ row :: after ∧
      (∀ other ∈ before, lower other.1 ≠ setting) ∧ lower row.1 = setting ∧ row.2 = v := by
  rw [fromKeywords?, Option.map_eq_some_iff]
  simp only [List.find?_eq_some_iff_append]
  constructor
  · rintro ⟨row, ⟨named, before, after, given, first⟩, rfl⟩
    exact ⟨before, row, after, given, by simpa using first, beq_iff_eq.1 named, rfl⟩
  · rintro ⟨before, row, after, given, first, named, rfl⟩
    exact ⟨row, ⟨beq_iff_eq.2 named, before, after, given, by simpa using first⟩, rfl⟩

/-- The source of a setting is the value that is chosen for it. -/
theorem chosen_iff (h : Distinct env) {v : Option Value} :
    Chosen env keywords setting v ↔ source? env keywords setting = v := by
  unfold source?
  constructor
  · rintro (⟨given, first, named⟩ | ⟨shown, given, named⟩ | ⟨shown, absent⟩)
    · rw [fromKeywords?_eq_some_iff.2 ⟨_, _, _, given, first, named, rfl⟩]
      rfl
    · rw [fromKeywords?_eq_none_iff.2 shown,
        (fromEnvironment?_eq_some_iff h).2 ⟨_, given, named, rfl⟩]
      rfl
    · rw [fromKeywords?_eq_none_iff.2 shown, (fromEnvironment?_eq_none_iff h).2 absent]
      rfl
  · rintro rfl
    cases keyword : fromKeywords? keywords setting with
    | some v =>
      obtain ⟨before, row, after, given, first, named, rfl⟩ := fromKeywords?_eq_some_iff.1 keyword
      exact .keyword given first named
    | none =>
      have shown := fromKeywords?_eq_none_iff.1 keyword
      cases found : fromEnvironment? env setting with
      | some text =>
        obtain ⟨v, given, named, rfl⟩ := (fromEnvironment?_eq_some_iff h).1 found
        exact .environment shown given named
      | none => exact .missing shown ((fromEnvironment?_eq_none_iff h).1 found)

/-- At most one value is chosen. -/
theorem Chosen.unique (h : Distinct env) {v w : Option Value}
    (hv : Chosen env keywords setting v) (hw : Chosen env keywords setting w) : v = w :=
  ((chosen_iff h).1 hv).symm.trans ((chosen_iff h).1 hw)

end Source

/-- The values that can be read as a flag: booleans, the numbers zero and one, and some texts. -/
inductive ReadsFlag : Value → Bool → Prop
  | flag (b : Bool) : ReadsFlag (.bool b) b
  | zero {a : Atom} (number : a.whole? = some 0) : ReadsFlag (.atom a) false
  | one {a : Atom} (number : a.whole? = some 1) : ReadsFlag (.atom a) true
  | no {s : String} (known : lower s ∈ falseTexts) : ReadsFlag (.text s) false
  | yes {s : String} (known : lower s ∈ trueTexts) : ReadsFlag (.text s) true

/-- A mode is read from its name only, in lower case. -/
inductive ReadsMode : Value → Mode → Prop
  | name (m : Mode) : ReadsMode (.text m.name) m

inductive ReadsText : Value → String → Prop
  | text (s : String) : ReadsText (.text s) s

theorem flagOfWhole_eq_ok_iff {least n : Int} {b : Bool} :
    flagOfWhole least n = .ok b ↔ n = 0 ∧ b = false ∨ n = 1 ∧ b = true := by
  unfold flagOfWhole
  by_cases zero : n = 0
  · subst zero
    cases b <;> simp
  · by_cases one : n = 1
    · subst one
      cases b <;> simp
    · simp [zero, one]

theorem flagOfText?_eq_some_iff {s : String} {b : Bool} : flagOfText? s = some b ↔
    lower s ∈ falseTexts ∧ b = false ∨ lower s ∈ trueTexts ∧ b = true := by
  unfold flagOfText?
  by_cases yes : lower s ∈ trueTexts
  · have no : lower s ∉ falseTexts := by
      intro no
      simp only [trueTexts, falseTexts, List.mem_cons, List.not_mem_nil, or_false] at yes no
      rcases yes with h | h | h | h | h | h <;> simp [h] at no
    cases b <;> simp [yes, no]
  · by_cases no : lower s ∈ falseTexts <;> cases b <;> simp [yes, no]

theorem readMode_iff {v : Value} {m : Mode} : readMode v = .ok m ↔ ReadsMode v m := by
  constructor
  · intro read
    unfold readMode at read
    split at read
    next s =>
      cases named : Mode.ofName? s with
      | none =>
        rw [named] at read
        cases read
      | some n =>
        rw [named] at read
        cases read
        rw [Mode.name_of_ofName? named]
        exact .name m
    next => cases read
  · rintro ⟨⟩
    rw [readMode, Mode.ofName?_name]

theorem readText_iff {v : Value} (noBytes : ∀ data, v ≠ .atom (.bytes data)) {s : String} :
    v.readText = .ok s ↔ ReadsText v s := by
  constructor
  · intro read
    cases v with
    | atom a =>
      cases a with
      | text t =>
        cases read
        exact .text s
      | bytes data => exact absurd rfl (noBytes data)
      | _ => cases read
    | _ => cases read
  · rintro ⟨⟩
    rfl

/-- All spellings of a number are read alike, as far as it is a flag. -/
theorem readFlag_of_whole {a : Atom} {n : Int} {b : Bool} (number : a.whole? = some n)
    (flag : n = 0 ∧ b = false ∨ n = 1 ∧ b = true) : readFlag (.atom a) = .ok b := by
  cases a with
  | bool b' =>
    rcases flag with ⟨rfl, rfl⟩ | ⟨rfl, rfl⟩ <;> cases b' <;> simp_all [Atom.whole?, readFlag]
  | int m =>
    cases number
    exact flagOfWhole_eq_ok_iff.2 flag
  | float t =>
    have whole : Decimal.wholeOfText? t = some n := number
    rw [readFlag, whole]
    exact flagOfWhole_eq_ok_iff.2 flag
  | _ => cases number

theorem readFlag_iff {v : Value} (noBytes : ∀ data, v ≠ .atom (.bytes data)) {b : Bool} :
    readFlag v = .ok b ↔ ReadsFlag v b := by
  constructor
  · intro read
    unfold readFlag at read
    split at read
    next b' =>
      cases read
      exact .flag b
    next n =>
      rcases flagOfWhole_eq_ok_iff.1 read with ⟨rfl, rfl⟩ | ⟨rfl, rfl⟩
      · exact .zero rfl
      · exact .one rfl
    next s =>
      cases known : flagOfText? s with
      | none =>
        rw [known] at read
        cases read
      | some b' =>
        rw [known] at read
        cases read
        rcases flagOfText?_eq_some_iff.1 known with ⟨no, rfl⟩ | ⟨yes, rfl⟩
        · exact .no no
        · exact .yes yes
    next data => exact absurd rfl (noBytes data)
    next t =>
      cases whole : Decimal.wholeOfText? t with
      | none =>
        rw [whole] at read
        cases read
      | some n =>
        rw [whole] at read
        rcases flagOfWhole_eq_ok_iff.1 read with ⟨rfl, rfl⟩ | ⟨rfl, rfl⟩
        · exact .zero whole
        · exact .one whole
    next => cases read
  · rintro (⟨b⟩ | ⟨number⟩ | ⟨number⟩ | ⟨known⟩ | ⟨known⟩)
    case flag => rfl
    case zero => exact readFlag_of_whole number (.inl ⟨rfl, rfl⟩)
    case one => exact readFlag_of_whole number (.inr ⟨rfl, rfl⟩)
    case no =>
      rw [readFlag, flagOfText?_eq_some_iff.2 (.inl ⟨known, rfl⟩)]
      rfl
    case yes =>
      rw [readFlag, flagOfText?_eq_some_iff.2 (.inr ⟨known, rfl⟩)]
      rfl

end Settings

end MapperSchema
