import Mathlib.Tactic.Choose
import TypeBridge.Proofs.Convert.Dispatch
import TypeBridge.Proofs.Text.InOrder
import TypeBridge.Proofs.Wrapper.Captured

/-!
How often the conversion of a text calls itself. The arguments of a wrapper stand in the text in
order, apart from each other and beside the wrapper's own characters, so the calls for them are paid
for with the characters of each. Main statement: the conversion of a text that is not empty makes at
most as many calls as the text has characters.
-/

namespace TypeBridge

/-! ### The arguments of a recognized wrapper -/

theorem inOrder_splitArguments (s : Text) : Text.InOrder (splitArguments s) s := by
  have hpieces : Text.InOrder (piecesFrom none 0 (balancedFrom none 0 s))
      (balancedFrom none 0 s) := by
    have hjoin := Text.inOrder_intercalate [','] (piecesFrom none 0 (balancedFrom none 0 s))
    rwa [intercalate_piecesFrom] at hjoin
  rw [splitArguments_eq]
  have hstart : balancedFrom none 0 s <:+: s := (balancedFrom_isPrefix none 0 s).isInfix
  exact (hpieces.map_strip.sublist List.filter_sublist).of_isInfix hstart

variable {text : Text} {w : Wrapped Text}

/-- The capture that the arguments of a recognized wrapper are taken from. -/
theorem exists_captured_of_recognize (h : (recognize text).value = some w) :
    ∃ captured, captured <:+: text ∧ '\n' ∉ captured ∧
      w.args = (splitArguments captured).take w.wrapper.arity := by
  obtain ⟨captured, hcapture, _, hargs⟩ := fits_of_recognize h
  obtain ⟨pre, post, hs, _⟩ := hcapture.exists_surrounds
  refine ⟨captured, ⟨pre ++ w.wrapper.opening, ' ' :: '>' :: post, ?_⟩, hs.newline_not_mem, hargs⟩
  rw [hs.text_eq]
  simp only [List.append_assoc]

theorem inOrder_args_recognize (h : (recognize text).value = some w) :
    Text.InOrder w.args text := by
  obtain ⟨captured, hcaptured, _, hargs⟩ := exists_captured_of_recognize h
  rw [hargs]
  exact ((inOrder_splitArguments captured).sublist (List.take_sublist _ _)).of_isInfix hcaptured

/-- Each argument of a recognized wrapper is a trimmed part of a line of the text. -/
theorem trimmed_of_mem_args_recognize (h : (recognize text).value = some w) {argument : Text}
    (ha : argument ∈ w.args) :
    argument ≠ [] ∧ Text.Trimmed argument ∧ '\n' ∉ argument ∧ argument <:+: text := by
  obtain ⟨captured, hcaptured, hline, hargs⟩ := exists_captured_of_recognize h
  rw [hargs] at ha
  have hmem := List.mem_of_mem_take ha
  obtain ⟨hne, htrimmed⟩ := trimmed_of_mem_splitArguments hmem
  have hpart : argument <:+: captured := isInfix_of_mem_splitArguments hmem
  exact ⟨hne, htrimmed, fun hn => hline (hpart.subset hn), hpart.trans hcaptured⟩

/-! ### Calls -/

/-- A run of the conversion of a text, with its result and the texts that it is called for in order,
the text itself first: the rules are those of `convertText`, and each argument that a wrapper
renders is converted once. -/
inductive ConvertsIn (config : Config) : Bool → Text → Logged TsType → List Text → Prop
  | scalar {isReturn : Bool} {text name : Text}
      (hscalar : Scalar.lookup? config.rows text = some name) :
      ConvertsIn config isReturn text (pure (.name name)) [text]
  | passed {isReturn : Bool} {text : Text} (hscalar : Scalar.lookup? config.rows text = none)
      (hwrapper : (recognize text).value = none) :
      ConvertsIn config isReturn text (recognize text >>= fun _ => passThrough text) [text]
  | wrapped {isReturn : Bool} {text : Text} {w : Wrapped Text} {result : Text → Logged TsType}
      {calls : Text → List Text} (hscalar : Scalar.lookup? config.rows text = none)
      (hwrapper : (recognize text).value = some w)
      (hargs : ∀ t ∈ w.args, ConvertsIn config false t (result t) (calls t)) :
      ConvertsIn config isReturn text
        (recognize text >>= fun _ => renderWrapped config isReturn (w.map result))
        (text :: w.args.flatMap calls)

namespace ConvertsIn

variable {config : Config} {isReturn : Bool} {result result' : Logged TsType}
  {calls calls' : List Text}

/-- A text has one run at most. -/
theorem unique (h : ConvertsIn config isReturn text result calls)
    (h' : ConvertsIn config isReturn text result' calls') : result = result' ∧ calls = calls' := by
  induction h generalizing result' calls' with
  | scalar hscalar =>
    cases h' with
    | scalar hscalar' =>
      cases hscalar.symm.trans hscalar'
      exact ⟨rfl, rfl⟩
    | passed hscalar' => cases hscalar.symm.trans hscalar'
    | wrapped hscalar' => cases hscalar.symm.trans hscalar'
  | passed hscalar hwrapper =>
    cases h' with
    | scalar hscalar' => cases hscalar.symm.trans hscalar'
    | passed => exact ⟨rfl, rfl⟩
    | wrapped _ hwrapper' => cases hwrapper.symm.trans hwrapper'
  | wrapped hscalar hwrapper _ ih =>
    cases h' with
    | scalar hscalar' => cases hscalar.symm.trans hscalar'
    | passed _ hwrapper' => cases hwrapper.symm.trans hwrapper'
    | wrapped _ hwrapper' hargs' =>
      cases hwrapper.symm.trans hwrapper'
      constructor
      · rw [Wrapped.map_congr fun t ht => (ih t ht (hargs' t ht)).1]
      · rw [List.flatMap_congr fun t ht => (ih t ht (hargs' t ht)).2]

/-- The calls for the arguments are paid for with their characters, and the call itself with the
wrapper's own. -/
theorem length_calls_le (h : ConvertsIn config isReturn text result calls) (hne : text ≠ []) :
    calls.length ≤ text.length := by
  induction h with
  | scalar => exact List.length_pos_iff.2 hne
  | passed => exact List.length_pos_iff.2 hne
  | wrapped _ hwrapper _ ih =>
    have hargs := Text.length_flatMap_le 0 fun t ht =>
      ih t ht (trimmed_of_mem_args_recognize hwrapper ht).1
    have htotal := length_flatten_args_recognize hwrapper
    rw [List.length_cons]
    omega

end ConvertsIn

theorem Logged.bind_of_value {α β : Type} {x : Logged α} {a : α} (h : x.value = a)
    (f : α → Logged β) : x >>= f = x >>= fun _ => f a :=
  bind_congr (congrArg f h)

/-- The conversion of a text comes to an end. -/
theorem exists_convertsIn (config : Config) (isReturn : Bool) (text : Text) :
    ∃ calls, ConvertsIn config isReturn text (convertText config isReturn text) calls := by
  rw [convertText_eq]
  cases hscalar : Scalar.lookup? config.rows text with
  | some name => exact ⟨[text], .scalar hscalar⟩
  | none =>
    dsimp only
    cases hwrapper : (recognize text).value with
    | none =>
      rw [Logged.bind_of_value hwrapper]
      exact ⟨[text], .passed hscalar hwrapper⟩
    | some w =>
      have hargs : ∀ t ∈ w.args, ∃ calls,
          ConvertsIn config false t (convertText config false t) calls := fun t ht =>
        have hlt := length_lt_of_mem_args_recognize hwrapper ht
        exists_convertsIn config false t
      choose! calls hcalls using hargs
      rw [Logged.bind_of_value hwrapper]
      exact ⟨_, .wrapped hscalar hwrapper hcalls⟩
termination_by text.length

/-- The arguments of a recognized wrapper are parts of the text that stand in order and leave eight
characters for the wrapper itself, so a text that is not empty is converted with at most as many
calls as it has characters. -/
theorem args_shrink_and_calls_le (text : Text) :
    (∀ w : Wrapped Text, (recognize text).value = some w →
      w.args.length = w.wrapper.arity ∧
      (∀ t ∈ w.args, t ≠ [] ∧ Text.Trimmed t ∧ '\n' ∉ t ∧ t <:+: text) ∧
      Text.InOrder w.args text ∧ w.args.flatten.length + 8 ≤ text.length) ∧
    (text ≠ [] → ∀ (config : Config) (isReturn : Bool), ∃ calls : List Text,
      calls.length ≤ text.length ∧
      ConvertsIn config isReturn text (convertText config isReturn text) calls ∧
      ∀ result calls', ConvertsIn config isReturn text result calls' →
        result = convertText config isReturn text ∧ calls' = calls) := by
  constructor
  · intro w hw
    exact ⟨w.length_args, fun t ht => trimmed_of_mem_args_recognize hw ht,
      inOrder_args_recognize hw, length_flatten_args_recognize hw⟩
  · intro hne config isReturn
    obtain ⟨calls, hcalls⟩ := exists_convertsIn config isReturn text
    exact ⟨calls, hcalls.length_calls_le hne, hcalls, fun result calls' h => h.unique hcalls⟩

/-- A map behind an arrow, with a third argument and with text behind its brackets. -/
theorem args_shrink_and_calls_le_map :
    let text := "-> HashMap < String , Vec < u8 >, i64 > > + 'a".toList
    let args := ["String".toList, "Vec < u8 >".toList]
    text ≠ [] ∧ (recognize text).value = some (.hashMap "String".toList "Vec < u8 >".toList) ∧
      Text.InOrder args text ∧ args.flatten.length + 8 ≤ text.length ∧
      ∃ calls : List Text, calls.length ≤ text.length ∧
        ConvertsIn {} true text (convertText {} true text) calls := by
  intro text args
  have hne : text ≠ [] := by decide
  have hw : (recognize text).value = some (.hashMap "String".toList "Vec < u8 >".toList) := by
    decide +kernel
  obtain ⟨hargs, hcalls⟩ := args_shrink_and_calls_le text
  obtain ⟨_, _, horder, htotal⟩ := hargs _ hw
  obtain ⟨calls, hle, hconvert, _⟩ := hcalls hne {} true
  exact ⟨hne, hw, horder, htotal, calls, hle, hconvert⟩

end TypeBridge
