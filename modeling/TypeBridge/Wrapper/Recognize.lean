import TypeBridge.Log
import TypeBridge.Nesting.Pieces
import TypeBridge.Wrapper.Capture

/-!
Finding the wrapper that a printed text is written with. The wrappers are tried in order, and the
first whose capture holds enough arguments is taken; a capture with too few is reported and passed
over. Main statement: the arguments of a recognized wrapper have together at least eight characters
fewer than the text.
-/

namespace TypeBridge

/-- The first of several wrappers that a text is written with. -/
def recognizeAmong (text : Text) : List Wrapper → Logged (Option (Wrapped Text))
  | [] => pure none
  | wrapper :: rest =>
    match wrapper.capture? text with
    | none => recognizeAmong text rest
    | some captured =>
      let args := splitArguments captured
      match wrapper.wrap? args with
      | some w => pure (some w)
      | none => do
        Logged.emit (.tooFewArguments wrapper text args.length)
        recognizeAmong text rest

/-- The wrapper that a printed text is written with, and its arguments. -/
def recognize (text : Text) : Logged (Option (Wrapped Text)) := recognizeAmong text Wrapper.all

theorem exists_capture_of_recognizeAmong {text : Text} {w : Wrapped Text} :
    ∀ {wrappers : List Wrapper}, (recognizeAmong text wrappers).value = some w →
      ∃ wrapper ∈ wrappers, ∃ captured, wrapper.capture? text = some captured ∧
        wrapper.wrap? (splitArguments captured) = some w
  | [], h => by simp [recognizeAmong] at h
  | wrapper :: rest, h => by
    have later : (recognizeAmong text rest).value = some w →
        ∃ wrapper' ∈ wrapper :: rest, ∃ captured, wrapper'.capture? text = some captured ∧
          wrapper'.wrap? (splitArguments captured) = some w := fun h =>
      let ⟨wrapper', hm, he⟩ := exists_capture_of_recognizeAmong h
      ⟨wrapper', List.mem_cons_of_mem _ hm, he⟩
    simp only [recognizeAmong] at h
    split at h
    · exact later h
    · rename_i captured hc
      split at h
      · rename_i w' hw
        cases h
        exact ⟨wrapper, by simp, captured, hc, hw⟩
      · exact later h

theorem length_flatten_args_recognize {text : Text} {w : Wrapped Text}
    (h : (recognize text).value = some w) : w.args.flatten.length + 8 ≤ text.length := by
  obtain ⟨wrapper, _, captured, hc, hw⟩ := exists_capture_of_recognizeAmong h
  have hc := Wrapper.length_capture? hc
  have ha := length_flatten_splitArguments_le captured
  have ht := Text.length_flatten_le_of_sublist
    (List.take_sublist wrapper.arity (splitArguments captured))
  rw [(Wrapper.wrap?_eq_some_iff.1 hw).2.2]
  omega

theorem length_lt_of_mem_args_recognize {text argument : Text} {w : Wrapped Text}
    (h : (recognize text).value = some w) (ha : argument ∈ w.args) :
    argument.length < text.length := by
  have hall := length_flatten_args_recognize h
  have hargument := (List.sublist_flatten_of_mem ha).length_le
  omega

end TypeBridge
