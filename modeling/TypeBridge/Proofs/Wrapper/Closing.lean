import TypeBridge.Proofs.Nesting.Closing
import TypeBridge.Proofs.Wrapper.Canonical

/-!
Where the bracket of a recognized wrapper is closed. The capture of `Vec` ends where the text does,
but its bracket may be closed before that; what stands behind it is dropped then. Main statement: in
well-nested text that is recognized as `Vec`, the last character closes the bracket just when what
stands between the first and the last bracket nests properly by itself.
-/

namespace TypeBridge

/-- The bracket that a wrapper opens in well-nested text is closed behind well-nested text. -/
theorem Wrapper.Surrounds.exists_closingIndex? {wrapper : Wrapper} {pre captured post text : Text}
    (hs : wrapper.Surrounds pre captured post text) (ht : WellNested text) :
    ∃ inside after, captured ++ ' ' :: '>' :: post = inside ++ '>' :: after ∧ WellNested inside ∧
      isArrowHead (lastOr none inside) '>' = false ∧
        closingIndex? '<' '>' text (pre.length + wrapper.name.length + 2)
          = some (pre.length + wrapper.name.length + 3 + inside.length) := by
  obtain ⟨inside, after, hinside, hopen, harrow⟩ := hs.exists_closer ht
  have hspace : some ' ' ≠ some '-' := by decide
  have hspaced : WellNested (' ' :: inside) := hopen
  have hclose := Bracket.closingIndex?_of_closesIn (hspaced.closesIn .angle)
    (by rwa [lastOr_cons]) (pre ++ wrapper.name ++ [' ']) after
  have htext : text = (pre ++ wrapper.name ++ [' ']) ++ '<' :: (' ' :: inside ++ '>' :: after) := by
    rw [hs.text_eq, hinside, opening]
    simp
  have hlength : (pre ++ wrapper.name ++ [' ']).length = pre.length + wrapper.name.length + 1 := by
    simp [Nat.add_assoc]
  rw [hlength] at hclose
  refine ⟨inside, after, hinside, ?_, ?_, ?_⟩
  · rwa [openAfter?_of_ne hspace] at hopen
  · rwa [isArrowHead_lastOr hspace] at harrow
  · rw [htext]
    refine hclose.trans (congrArg some ?_)
    rw [List.length_cons]
    omega

/-- A closer in text that ends with ` >` is its last character or stands before that. -/
theorem closer_last_or_before {content inside after : Text}
    (h : content ++ ' ' :: '>' :: [] = inside ++ '>' :: after) :
    inside = content ++ [' '] ∨ ∃ dropped, content = inside ++ '>' :: dropped := by
  rcases List.append_eq_append_iff.1 h with ⟨x, rfl, hx⟩ | ⟨x, rfl, hx⟩
  · left
    match x, hx with
    | [_], hx =>
      obtain ⟨rfl, _⟩ := List.cons.inj hx
      rfl
    | _ :: _ :: x, hx => simp at hx
  · right
    match x, hx with
    | _ :: dropped, hx =>
      obtain ⟨rfl, _⟩ := List.cons.inj hx
      exact ⟨dropped, rfl⟩

/-- Well-nested text that is recognized as `Vec` ends with the closer of its bracket just when what
stands between the first and the last bracket nests properly. Otherwise the bracket is closed before
that, the element comes from what the bracket holds, and the rest is dropped. -/
theorem closingIndex?_of_recognize_vec {text element : Text} (ht : WellNested text)
    (h : (recognize text).value = some (.vec element)) :
    ∃ content, text = "Vec < ".toList ++ content ++ " >".toList ∧
      (closingIndex? '<' '>' text 5 = some (text.length - 1) ↔ WellNested content) ∧
      (¬ WellNested content → ∃ inside dropped, content = inside ++ '>' :: dropped ∧
        WellNested inside ∧ closingIndex? '<' '>' text 5 = some (6 + inside.length) ∧
          (splitArguments inside).head? = some element) := by
  obtain ⟨content, hcapture, _, hargs⟩ := fits_of_recognize h
  have hs : Wrapper.vec.Surrounds [] content [] text := hcapture
  obtain ⟨inside, after, hinside, hnested, harrow, hclose⟩ := hs.exists_closingIndex? ht
  have htext : text = "Vec < ".toList ++ content ++ " >".toList := by
    rw [hs.text_eq, List.append_assoc]
    rfl
  have hindex : closingIndex? '<' '>' text 5 = some (6 + inside.length) := hclose
  have hlength : text.length = content.length + 8 := by
    rw [htext]
    simp
  have helement : (splitArguments content).head? = some element := by
    have htake : ((splitArguments content).take 1).head? = some element :=
      congrArg List.head? hargs.symm
    rwa [List.head?_take, if_neg Nat.one_ne_zero] at htake
  refine ⟨content, htext, ?_⟩
  rw [hindex, hlength, Option.some.injEq]
  rcases closer_last_or_before hinside with rfl | ⟨dropped, rfl⟩
  · have hcontent : WellNested content := wellNested_concat_space_iff.1 hnested
    refine ⟨iff_of_true ?_ hcontent, fun hn => absurd hcontent hn⟩
    rw [List.length_append, List.length_singleton]
    omega
  · have hn := Bracket.angle.not_wellNested_of_closer hnested harrow dropped
    have hdropped := Bracket.angle.splitArguments_of_closer hnested harrow dropped
    refine ⟨iff_of_false ?_ hn, fun _ => ⟨inside, dropped, rfl, hnested, rfl, ?_⟩⟩
    · rw [List.length_append, List.length_cons]
      omega
    · exact hdropped ▸ helement

/-- An associated item behind the list is taken for part of a `Vec`, and dropped. -/
theorem closingIndex?_of_recognize_vec_item :
    let text := "Vec < u8 > :: Item < T >".toList
    WellNested text ∧ (recognize text).value = some (.vec "u8".toList) ∧
      closingIndex? '<' '>' text 5 ≠ some (text.length - 1) := by
  intro text
  have ht : WellNested text := by decide
  have h : (recognize text).value = some (.vec "u8".toList) := by decide +kernel
  obtain ⟨content, hcontent, hiff, _⟩ := closingIndex?_of_recognize_vec ht h
  have hsame : "Vec < ".toList ++ "u8 > :: Item < T".toList ++ " >".toList
      = "Vec < ".toList ++ content ++ " >".toList := hcontent
  obtain rfl := List.append_cancel_left (List.append_cancel_right hsame)
  exact ⟨ht, h, fun hlast => absurd (hiff.1 hlast) (by decide)⟩

end TypeBridge
