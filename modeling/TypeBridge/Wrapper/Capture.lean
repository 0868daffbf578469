import TypeBridge.Wrapper.Basic

/-!
What stands between the brackets of a wrapper in printed text. A capture never crosses a line. `Vec`
must be the whole text; `Option` and `Result` must begin it, and their capture ends at the last ` >`
of the line; `HashMap` may stand anywhere, and the leftmost that has a capture counts. Main
statement: a capture is shorter than the text by at least the wrapper's own eight characters.
-/

namespace TypeBridge

/-- The longest stretch of the first line that is followed by ` >`. -/
def beforeLastClose? : Text → Option Text
  | [] => none
  | c :: s =>
    if c = '\n' then none
    else
      match beforeLastClose? s with
      | some t => some (c :: t)
      | none => if [' ', '>'].isPrefixOf (c :: s) then some [] else none

theorem beforeLastClose?_eq_some : ∀ {s t : Text}, beforeLastClose? s = some t →
    ∃ rest, s = t ++ ' ' :: '>' :: rest
  | [], _, h => by simp [beforeLastClose?] at h
  | c :: s, t, h => by
    simp only [beforeLastClose?] at h
    split at h
    · cases h
    split at h
    · rename_i u hu
      obtain ⟨rest, rfl⟩ := beforeLastClose?_eq_some hu
      cases h
      exact ⟨rest, rfl⟩
    split at h
    · rename_i hs
      cases h
      obtain ⟨rest, hr⟩ := List.isPrefixOf_iff_prefix.1 hs
      exact ⟨rest, hr.symm⟩
    · cases h

namespace Wrapper

/-- What a wrapper is written with before its arguments. -/
def opening (wrapper : Wrapper) : Text := wrapper.name ++ " < ".toList

/-- The capture of a wrapper that begins the text. -/
def captureAtStart? (wrapper : Wrapper) (s : Text) : Option Text :=
  (wrapper.opening.isPrefixOf? s).bind beforeLastClose?

/-- The capture of a wrapper that is the whole text. -/
def captureWhole? (wrapper : Wrapper) (s : Text) : Option Text :=
  ((wrapper.opening.isPrefixOf? s).bind (" >".toList.isSuffixOf?)).filter fun t =>
    !t.contains '\n'

/-- The capture of the leftmost wrapper in the text that has one. -/
def captureAnywhere? (wrapper : Wrapper) : Text → Option Text
  | [] => none
  | c :: s =>
    match wrapper.captureAtStart? (c :: s) with
    | some t => some t
    | none => captureAnywhere? wrapper s

/-- The text between the brackets of a wrapper in printed text. -/
def capture? : Wrapper → Text → Option Text
  | vec, s => captureWhole? vec s
  | option, s => captureAtStart? option s
  | result, s => captureAtStart? result s
  | hashMap, s => captureAnywhere? hashMap s

/-! ### Captures are shorter than the text -/

theorem length_opening (wrapper : Wrapper) : 6 ≤ wrapper.opening.length := by
  cases wrapper <;> decide

theorem length_captureAtStart? {wrapper : Wrapper} {s t : Text}
    (h : wrapper.captureAtStart? s = some t) : t.length + 8 ≤ s.length := by
  obtain ⟨u, hu, ht⟩ := Option.bind_eq_some_iff.1 h
  obtain ⟨rest, rfl⟩ := beforeLastClose?_eq_some ht
  have hopening := length_opening wrapper
  have hs := Text.length_isPrefixOf? hu
  rw [List.length_append, List.length_cons, List.length_cons] at hs
  omega

theorem length_captureWhole? {wrapper : Wrapper} {s t : Text}
    (h : wrapper.captureWhole? s = some t) : t.length + 8 ≤ s.length := by
  obtain ⟨u, hu, ht⟩ := Option.bind_eq_some_iff.1 (Option.filter_eq_some_iff.1 h).1
  have hopening := length_opening wrapper
  have hs := Text.length_isPrefixOf? hu
  have hclose := Text.length_isSuffixOf? ht
  have htwo : " >".toList.length = 2 := rfl
  omega

theorem length_captureAnywhere? {wrapper : Wrapper} : ∀ {s t : Text},
    wrapper.captureAnywhere? s = some t → t.length + 8 ≤ s.length
  | [], _, h => by simp [captureAnywhere?] at h
  | c :: s, t, h => by
    simp only [captureAnywhere?] at h
    split at h
    · rename_i u hu
      cases h
      exact length_captureAtStart? hu
    · have := length_captureAnywhere? h
      simp only [List.length_cons]
      omega

theorem length_capture? {wrapper : Wrapper} {s t : Text} (h : wrapper.capture? s = some t) :
    t.length + 8 ≤ s.length := by
  cases wrapper
  · exact length_captureWhole? h
  · exact length_captureAtStart? h
  · exact length_captureAtStart? h
  · exact length_captureAnywhere? h

end Wrapper

end TypeBridge
