import TypeBridge.Proofs.Nesting.Depth

/-!
Well-nested text made of well-nested parts. Main statements: texts that nest properly still do when
they are joined by commas; and behind a name, well-nested text in brackets nests properly and holds
no comma that separates.
-/

namespace TypeBridge

theorem WellNested.openAfter?_eq {before : Option Char} {s : Text} (h : WellNested s)
    (hb : before ≠ some '-') (stack : List Bracket) : openAfter? before stack s = some stack := by
  rw [openAfter?_of_ne hb]
  exact openAfter?_add stack h

theorem wellNested_intercalate {texts : List Text} (h : ∀ s ∈ texts, WellNested s) :
    WellNested (", ".toList.intercalate texts) := by
  induction texts with
  | nil => rfl
  | cons s rest ih =>
    obtain ⟨hs, hr⟩ := List.forall_mem_cons.1 h
    rw [Text.intercalate_cons]
    refine WellNested.append hs ?_
    split
    · rfl
    · have hcomma : openAfter? (lastOr none s) [] ", ".toList = some [] := rfl
      have hspace : lastOr (lastOr none s) ", ".toList = some ' ' := by simp [lastOr]
      rw [openAfter?_append, hcomma, Option.bind_some, hspace]
      exact (ih hr).openAfter?_eq (by decide) []

/-! ### Brackets behind a name -/

section

variable {name body : Text}

theorem wellNested_angled (hname : Quiet name) (hbody : WellNested body) :
    WellNested (name ++ (" < ".toList ++ body ++ " >".toList)) := by
  have hn : openAfter? none [] name = some [] := by
    rw [openAfter?_eq_scan]
    exact scan_quiet passes_stackStep none [] hname
  have hopen : openAfter? (lastOr none name) [] " < ".toList = some [.angle] := rfl
  have hspace : lastOr (lastOr none name) " < ".toList = some ' ' := by simp [lastOr]
  have hb : openAfter? (some ' ') [.angle] body = some [.angle] :=
    hbody.openAfter?_eq (by decide) _
  refine WellNested.append hn ?_
  rw [List.append_assoc, openAfter?_append, hopen, hspace, Option.bind_some, openAfter?_append, hb]
  rfl

theorem depthAfter?_angled (hname : Quiet name) (hbody : WellNested body) :
    depthAfter? none 0 (name ++ (" < ".toList ++ body ++ " >".toList)) = some 0 := by
  have hopen : depthAfter? (lastOr none name) 0 " < ".toList = some 1 := rfl
  have hspace : lastOr (lastOr none name) " < ".toList = some ' ' := by simp [lastOr]
  have hb : depthAfter? (some ' ') 1 body = some 1 := by
    have hone : (0 : Int) < 1 := by decide
    have hnil : openAfter? (some ' ') [] body = some [] := hbody.openAfter?_eq (by decide) []
    exact depthAfter?_of_openAfter? hone hnil
  refine scan_append_eq_some.2 ⟨0, scan_quiet passes_commaStep none 0 hname, ?_⟩
  rw [List.append_assoc]
  refine scan_append_eq_some.2 ⟨1, hopen, ?_⟩
  rw [hspace]
  exact scan_append_eq_some.2 ⟨1, hb, rfl⟩

end

end TypeBridge
