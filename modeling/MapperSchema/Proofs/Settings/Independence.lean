import Mathlib.Data.List.Forall2
import MapperSchema.Proofs.Settings.Resolution

/-! What settings do not depend on: variables that a keyword takes the place of, variables of other
programs, and the letter case of names and of a flag's text. -/
namespace MapperSchema.Settings

/-- Values that a setting does not tell apart. -/
inductive Alike (setting : Setting) : Value → Value → Prop
  | same (v : Value) : Alike setting v v
  | letters {s t} (flag : setting.IsFlag) (same : lower s = lower t) :
    Alike setting (.text s) (.text t)

/-- A variable in other letters. Nothing is said of its text if no setting has this name. -/
structure SameVariable (v w : String × String) : Prop where
  name : lower v.1 = lower w.1
  text : ∀ setting : Setting, lower v.1 = variablePrefix ++ setting.name →
    Alike setting (.text v.2) (.text w.2)

/-- A keyword in other letters. An unknown one shows in a complaint, so its name is kept. -/
structure SameKeyword (k l : String × Value) : Prop where
  name : lower k.1 = lower l.1
  value : ∀ setting : Setting, lower k.1 = setting.name → Alike setting k.2 l.2
  unknown : lower k.1 ∉ fieldNames → k.1 = l.1

/-- No setting is read from the variable: it names none, or a keyword is given in its place. -/
def Hidden (keywords : Options) (v : String × String) : Prop :=
  ∀ setting : Setting, lower v.1 = variablePrefix ++ setting.name →
    ∃ row ∈ keywords.rows, lower row.1 = setting.name

section Alike

variable {setting : Setting} {x y : Value}

theorem Alike.eq (alike : Alike setting x y) (notFlag : ¬setting.IsFlag) : x = y := by
  cases alike with
  | same => rfl
  | letters flag => exact absurd flag notFlag

theorem Alike.readFlag (alike : Alike setting x y) : readFlag x = readFlag y := by
  cases alike with
  | same => rfl
  | @letters s t _ same =>
    have text : flagOfText? s = flagOfText? t := by simp only [flagOfText?, same]
    rw [Settings.readFlag, Settings.readFlag, text]

theorem readSetting_of_alike {α : Type} {read : Value → Except Complaint α} {missing : α}
    {name : String} {v w : Option Value} (reading : ∀ x y, Alike setting x y → read x = read y)
    (alike : Option.Rel (Alike setting) v w) :
    readSetting read missing name v = readSetting read missing name w := by
  cases alike with
  | none => rfl
  | some alike => simp only [readSetting, reading _ _ alike]

end Alike

section Related

variable {α β : Type} {R : α → α → Prop} {Q : β → β → Prop}

/-- Related lists are searched with related results. -/
theorem rel_find? {p : α → Bool} {f : α → β} {as bs : List α} (related : List.Forall₂ R as bs)
    (same : ∀ a b, R a b → p a = p b) (found : ∀ a b, R a b → p a = true → Q (f a) (f b)) :
    Option.Rel Q ((as.find? p).map f) ((bs.find? p).map f) := by
  induction related with
  | nil => exact .none
  | @cons a b as bs head tail ih =>
    cases here : p a with
    | true =>
      have there : p b = true := (same a b head).symm.trans here
      rw [List.find?_cons_of_pos here, List.find?_cons_of_pos there]
      exact .some (found a b head here)
    | false =>
      have there : ¬p b = true := by simp [← same a b head, here]
      rw [List.find?_cons_of_neg (by simp [here]), List.find?_cons_of_neg there]
      exact ih

theorem rel_or {a a' b b' : Option β} (first : Option.Rel Q a a') (second : Option.Rel Q b b') :
    Option.Rel Q (a.or b) (a'.or b') := by
  cases first with
  | some first => exact .some first
  | none => exact second

end Related

section Letters

variable {env env' : List (String × String)} {keywords keywords' : Options} {setting : Setting}

theorem Distinct.of_sameVariable (distinct : Distinct env)
    (same : List.Forall₂ SameVariable env env') : Distinct env' := by
  have related : List.Forall₂ (fun v w => lower v.1 = lower w.1) env env' :=
    same.imp fun _ _ same => same.name
  have names : env.map (fun v => lower v.1) = env'.map fun v => lower v.1 := by
    rwa [← List.forall₂_eq_eq_eq, List.forall₂_map_left_iff, List.forall₂_map_right_iff]
  have pairwise : (env.map fun v => lower v.1).Pairwise (· ≠ ·) := List.pairwise_map.2 distinct
  rw [names] at pairwise
  exact List.pairwise_map.1 pairwise

theorem alike_fromEnvironment (distinct : Distinct env)
    (same : List.Forall₂ SameVariable env env') :
    Option.Rel (Alike setting) ((fromEnvironment? env setting.name).map .text)
      ((fromEnvironment? env' setting.name).map .text) := by
  have distinct' := distinct.of_sameVariable same
  rw [fromEnvironment?, fromEnvironment?, distinct.rows_ofList, distinct'.rows_ofList,
    Option.map_map, Option.map_map]
  refine rel_find? (List.rel_reverse same) (fun v w same => ?_) (fun v w same named => ?_)
  · rw [same.name]
  · exact same.text setting (beq_iff_eq.1 named)

theorem alike_fromKeywords (same : List.Forall₂ SameKeyword keywords.rows keywords'.rows) :
    Option.Rel (Alike setting) (fromKeywords? keywords setting.name)
      (fromKeywords? keywords' setting.name) := by
  refine rel_find? same (fun k l same => ?_) (fun k l same named => ?_)
  · rw [same.name]
  · exact same.value setting (beq_iff_eq.1 named)

theorem unknown_of_sameKeyword (same : List.Forall₂ SameKeyword keywords.rows keywords'.rows) :
    unknown keywords = unknown keywords' := by
  unfold unknown Table.keys
  generalize keywords.rows = rows, keywords'.rows = rows' at same
  induction same with
  | nil => rfl
  | @cons k l rows rows' head _ ih =>
    rw [List.map_cons, List.map_cons, List.filter_cons, List.filter_cons, ih, head.name]
    by_cases known : lower l.1 ∈ fieldNames
    · simp [known]
    · rw [head.unknown (head.name ▸ known)]

theorem resolve_of_alike (further : unknown keywords = unknown keywords')
    (alike : ∀ setting : Setting, Option.Rel (Alike setting)
      (source? env keywords setting.name) (source? env' keywords' setting.name)) :
    resolve env keywords = resolve env' keywords' := by
  have flag (setting : Setting) :
      readSetting readFlag false setting.name (source? env keywords setting.name) =
        readSetting readFlag false setting.name (source? env' keywords' setting.name) :=
    readSetting_of_alike (fun x y same => same.readFlag) (alike setting)
  rw [resolve_eq, resolve_eq, further, flag .jsonLogs, flag .strictRequired,
    readSetting_of_alike (fun x y same => by rw [same.eq nofun]) (alike .environment),
    readSetting_of_alike (fun x y same => by rw [same.eq nofun]) (alike .logLevel)]

theorem resolve_of_same (distinct : Distinct env)
    (same : List.Forall₂ SameVariable env env')
    (same' : List.Forall₂ SameKeyword keywords.rows keywords'.rows) :
    resolve env keywords = resolve env' keywords' :=
  resolve_of_alike (unknown_of_sameKeyword same') fun _ =>
    rel_or (alike_fromKeywords same') (alike_fromEnvironment distinct same)

end Letters

section Hidden

variable {before after : List (String × String)} {keywords : Options} {hidden : String × String}

theorem Chosen.insert {setting : Setting} {v : Option Value} (hides : Hidden keywords hidden)
    (chosen : Chosen (before ++ after) keywords setting.name v) :
    Chosen (before ++ hidden :: after) keywords setting.name v := by
  have mem {w : String × String} (mem : w ∈ before ++ after) : w ∈ before ++ hidden :: after := by
    rw [List.mem_append, List.mem_cons]
    exact (List.mem_append.1 mem).imp_right .inr
  cases chosen with
  | keyword given first named => exact .keyword given first named
  | environment shown given named => exact .environment shown (mem given) named
  | missing shown absent =>
    refine .missing shown fun w given named => ?_
    rcases List.mem_append.1 given with given | given
    · exact absent w (List.mem_append_left _ given) named
    rcases List.mem_cons.1 given with rfl | given
    · obtain ⟨row, mem, same⟩ := hides setting named
      exact shown row mem same
    · exact absent w (List.mem_append_right _ given) named

theorem source?_of_hidden {setting : Setting} (distinct : Distinct (before ++ hidden :: after))
    (hides : Hidden keywords hidden) :
    source? (before ++ hidden :: after) keywords setting.name =
      source? (before ++ after) keywords setting.name := by
  have sublist : (before ++ after).Sublist (before ++ hidden :: after) :=
    (List.sublist_cons_self hidden after).append_left before
  have chosen := (chosen_iff (distinct.sublist sublist)).2
    (rfl : source? (before ++ after) keywords setting.name = _)
  exact (chosen_iff distinct).1 (chosen.insert hides)

theorem resolve_of_hidden (distinct : Distinct (before ++ hidden :: after))
    (hides : Hidden keywords hidden) :
    resolve (before ++ hidden :: after) keywords = resolve (before ++ after) keywords := by
  refine resolve_of_alike rfl fun setting => ?_
  rw [source?_of_hidden distinct hides]
  cases source? (before ++ after) keywords setting.name with
  | none => exact .none
  | some v => exact .some (.same v)

end Hidden

end MapperSchema.Settings
