import MapperSchema.Proofs.Annotation.Monoid

/-! Finalised schema options. Finalising spells out the timestamps and adds `strict`, and changes
nothing else; what has been finalised stays as it is, also when it is merged in once more. -/
namespace MapperSchema

namespace Annotation

variable {options : Options}

/-- What becomes of one timestamp: its own name if it is on or not mentioned, false if it is off,
and otherwise what was given. -/
inductive Resolves (own : String) : Option Value → Value → Prop
  | missing : Resolves own none (.text own)
  | on : Resolves own (some (.bool true)) (.text own)
  | off : Resolves own (some (.bool false)) (.bool false)
  | null : Resolves own (some .null) (.bool false)
  | other {v : Value} (notTrue : v ≠ .bool true) (notFalse : v ≠ .bool false)
    (notNull : v ≠ .null) : Resolves own (some v) v

theorem resolves (own : String) (given : Option Value) :
    Resolves own given (resolvedTimestamp own given) := by
  unfold resolvedTimestamp
  split
  · exact .missing
  · exact .on
  · exact .off
  · exact .null
  next notTrue notFalse notNull =>
    exact .other (by simpa using notTrue) (by simpa using notFalse) (by simpa using notNull)

/-- What has been resolved is a name, false or something else that stands as it is. -/
theorem resolvedTimestamp_resolved {own : String} {given : Option Value} {v : Value}
    (h : Resolves own given v) : resolvedTimestamp own (some v) = v := by
  cases h with
  | missing | on | off | null => rfl
  | other notTrue notFalse notNull =>
    unfold resolvedTimestamp
    split <;> simp_all

/-- The options once more: nothing is left to spell out or to add. -/
structure Settled (mode : Option UnknownKeys) (options : Options) : Prop where
  timestamps : withTimestamps options = options
  strict : mode.isSome → options.contains "strict"

theorem Settled.finalOptions {mode : Option UnknownKeys} (h : Settled mode options)
    (overrides : Table String Options) : finalOptions ⟨options, overrides, mode⟩ = options := by
  unfold Annotation.finalOptions
  rw [h.timestamps]
  cases mode with
  | none => rfl
  | some m => rw [withStrict, if_pos (h.strict rfl)]

theorem get?_withTimestamps_of_ne {name : String} (h : name ≠ "timestamps") :
    (withTimestamps options).get? name = options.get? name := by
  unfold withTimestamps
  split
  · rw [Table.get?_insert, if_neg]
    simpa using h.symm
  · rfl

theorem keys_withTimestamps (options : Options) : (withTimestamps options).keys = options.keys := by
  unfold withTimestamps
  split
  next entries given =>
    have there : options.contains "timestamps" := by rw [Table.contains, given]; rfl
    rw [Table.keys_insert, if_pos there]
  next => rfl

theorem timestampsOption_again (given : Bag) :
    ∃ entries, timestampsOption given = .mapping entries ∧
      timestampsOption (Table.ofList entries) = .mapping entries := by
  have created := resolvedTimestamp_resolved (resolves "createdAt" (given.get? (.text "createdAt")))
  have updated := resolvedTimestamp_resolved (resolves "updatedAt" (given.get? (.text "updatedAt")))
  refine ⟨_, rfl, ?_⟩
  rw [timestampsOption, Table.get?_ofList, Table.get?_ofList]
  simp [Table.last?, List.findRev?, created, updated]

/-- Nothing is left to spell out if the timestamps are no mapping or one that is spelled out. -/
theorem withTimestamps_eq_self_iff : withTimestamps options = options ↔
    ∀ entries, options.get? "timestamps" = some (.mapping entries) →
      timestampsOption (Table.ofList entries) = .mapping entries := by
  unfold withTimestamps
  split
  next entries given =>
    rw [given]
    constructor
    · rintro written _ ⟨⟩
      have now := congrArg (Table.get? · "timestamps") written
      simpa [given] using now
    · intro spelled
      apply Table.insert_of_get?
      rw [given, spelled entries rfl]
  next other => exact iff_of_true rfl fun entries given => absurd given (other entries)

theorem get?_withTimestamps_of_mapping {entries : List (Key × Value)}
    (given : options.get? "timestamps" = some (.mapping entries)) :
    (withTimestamps options).get? "timestamps" =
      some (timestampsOption (Table.ofList entries)) := by
  rw [withTimestamps, given]
  simp

theorem withTimestamps_of_other
    (other : ∀ entries, options.get? "timestamps" ≠ some (.mapping entries)) :
    withTimestamps options = options := by
  unfold withTimestamps
  split
  next entries given => exact absurd given (other entries)
  next => rfl

theorem withTimestamps_withTimestamps (options : Options) :
    withTimestamps (withTimestamps options) = withTimestamps options := by
  by_cases mapping : ∃ entries, options.get? "timestamps" = some (.mapping entries)
  · obtain ⟨entries, given⟩ := mapping
    rw [withTimestamps_eq_self_iff, get?_withTimestamps_of_mapping given]
    obtain ⟨rows, spelled, again⟩ := timestampsOption_again (Table.ofList entries)
    rw [spelled]
    rintro _ ⟨⟩
    exact again
  · have same := withTimestamps_of_other (not_exists.1 mapping)
    rw [same, same]

theorem get?_withStrict_of_ne (mode : Option UnknownKeys) {name : String} (h : name ≠ "strict") :
    (withStrict mode options).get? name = options.get? name := by
  unfold withStrict
  split
  · split
    · rfl
    · rw [Table.get?_insert, if_neg]
      simpa using h.symm
  · rfl

theorem get?_withStrict_of_some (mode : Option UnknownKeys) {name : String} {v : Value}
    (given : options.get? name = some v) : (withStrict mode options).get? name = some v := by
  by_cases h : name = "strict"
  · subst h
    have there : options.contains "strict" := by rw [Table.contains, given]; rfl
    cases mode with
    | none => exact given
    | some m => rwa [withStrict, if_pos there]
  · rwa [get?_withStrict_of_ne mode h]

/-- The key that finalising adds: `strict`, if a mode is set and it is not given. -/
def addedKeys (mode : Option UnknownKeys) (options : Options) : List String :=
  if mode.isSome && !options.contains "strict" then ["strict"] else []

theorem keys_withStrict (mode : Option UnknownKeys) (options : Options) :
    (withStrict mode options).keys = options.keys ++ addedKeys mode options := by
  unfold withStrict addedKeys
  cases mode with
  | none => simp
  | some m =>
    by_cases there : options.contains "strict"
    · simp [there]
    · simp [there, Table.keys_insert]

theorem contains_withStrict {mode : Option UnknownKeys} (set : mode.isSome) :
    (withStrict mode options).contains "strict" := by
  rw [Table.contains_eq_any_keys, keys_withStrict, addedKeys, List.any_append,
    ← Table.contains_eq_any_keys, set]
  cases options.contains "strict" <;> rfl

theorem contains_withTimestamps (options : Options) (name : String) :
    (withTimestamps options).contains name = options.contains name := by
  rw [Table.contains_eq_any_keys, keys_withTimestamps, ← Table.contains_eq_any_keys]

theorem finalOptions_keys (a : Annotation) : a.finalOptions.keys =
    a.schemaOptions.keys ++ addedKeys a.unknownKeys a.schemaOptions := by
  rw [finalOptions, keys_withStrict, keys_withTimestamps, addedKeys, addedKeys,
    contains_withTimestamps]

theorem settled_finalOptions (a : Annotation) : Settled a.unknownKeys a.finalOptions where
  timestamps := by
    have spelled := withTimestamps_eq_self_iff.1 (withTimestamps_withTimestamps a.schemaOptions)
    rw [withTimestamps_eq_self_iff, finalOptions, get?_withStrict_of_ne _ (by decide)]
    exact spelled
  strict set := contains_withStrict set

/-- What finalising makes of the schema options: the same keys in the same order, with `strict` at
the end if it is added; the same values, but for timestamps given as a mapping. -/
structure FinalisesTo (a : Annotation) (final : Options) : Prop where
  keys : final.keys = a.schemaOptions.keys ++
    addedKeys a.unknownKeys a.schemaOptions
  kept : ∀ name v, a.schemaOptions.get? name = some v →
    (name = "timestamps" → ∀ entries, v ≠ .mapping entries) → final.get? name = some v
  timestamps : ∀ entries, a.schemaOptions.get? "timestamps" = some (.mapping entries) →
    ∃ created updated,
      Resolves "createdAt" (Table.last? (.text "createdAt") entries) created ∧
      Resolves "updatedAt" (Table.last? (.text "updatedAt") entries) updated ∧
      final.get? "timestamps" =
        some (.mapping [(.text "createdAt", created), (.text "updatedAt", updated)])
  strict : ∀ mode, a.unknownKeys = some mode → a.schemaOptions.contains "strict" = false →
    final.get? "strict" = some mode.strict

theorem finalisesTo_finalOptions (a : Annotation) : a.FinalisesTo a.finalOptions where
  keys := finalOptions_keys a
  kept name v given unlike := by
    apply get?_withStrict_of_some
    by_cases h : name = "timestamps"
    · subst h
      rwa [withTimestamps_of_other fun entries mapping =>
        unlike rfl entries (Option.some.inj (given.symm.trans mapping))]
    · rwa [get?_withTimestamps_of_ne h]
  timestamps entries given := by
    refine ⟨_, _, resolves _ _, resolves _ _, ?_⟩
    rw [finalOptions, get?_withStrict_of_ne _ (by decide), get?_withTimestamps_of_mapping given,
      timestampsOption, Table.get?_ofList, Table.get?_ofList]
  strict mode set absent := by
    rw [finalOptions, set, withStrict, contains_withTimestamps, absent]
    simp

/-- Finalising changes the options as it says. What is final stays final: by itself, and after
it has been merged once more onto what it was made from. -/
theorem finalisation_settles (a b update : Annotation) (overrides : Table String Options) :
    a.FinalisesTo a.finalOptions ∧
      finalOptions ⟨a.finalOptions, overrides, a.unknownKeys⟩ = a.finalOptions ∧
      let final := (b.merge update).finalOptions
      (b.merge { schemaOptions := final }).finalOptions = final := by
  refine ⟨finalisesTo_finalOptions a, (settled_finalOptions a).finalOptions overrides, ?_⟩
  intro final
  have settled : Settled (b.merge update).unknownKeys final := settled_finalOptions _
  have whole : b.schemaOptions.merge final = final := by
    have keys : final.keys = (b.schemaOptions.merge update.schemaOptions).keys ++ _ :=
      finalOptions_keys (b.merge update)
    rw [Table.keys_merge, List.append_assoc] at keys
    exact Table.merge_of_keys_append keys
  have again : Settled b.unknownKeys final := by
    refine ⟨settled.timestamps, fun set => settled.strict ?_⟩
    change (update.unknownKeys.or b.unknownKeys).isSome
    simp [set]
  change finalOptions ⟨b.schemaOptions.merge final, _, b.unknownKeys⟩ = final
  rw [whole]
  exact again.finalOptions _

example : finalOptions { schemaOptions := .single "timestamps" (.mapping
      [(.text "updatedAt", .null), (.text "zone", .text "UTC")]), unknownKeys := some .throw } =
    .ofList [("timestamps", .mapping
      [(.text "createdAt", .text "createdAt"), (.text "updatedAt", .bool false)]),
      ("strict", .text "throw")] := rfl

end Annotation

end MapperSchema
