import TypeBridge.Proofs.Wrapper.Recognition

/-!
Captures described without a search. `Vec` captures what it surrounds as the whole text, `Option`
and `Result` the longest of what they surround at the start, and `HashMap` the longest of what its
leftmost occurrence surrounds. Main statement: a text is recognized as the first wrapper, in the
order of trial, whose capture holds the arguments that it renders, and as none if there is no such
wrapper.
-/

namespace TypeBridge

namespace Wrapper

/-- Whether a text is a wrapper around `captured`, with `pre` before it and `post` behind its
closing bracket. What it surrounds stands on one line. -/
structure Surrounds (wrapper : Wrapper) (pre captured post text : Text) : Prop where
  text_eq : text = pre ++ (wrapper.opening ++ (captured ++ ' ' :: '>' :: post))
  newline_not_mem : '\n' ∉ captured

/-- Whether `captured` is the longest text that a wrapper behind `pre` surrounds. -/
structure CapturesBehind (wrapper : Wrapper) (pre text captured : Text) : Prop where
  exists_surrounds : ∃ post, wrapper.Surrounds pre captured post text
  longest : ∀ other post, wrapper.Surrounds pre other post text → other.length ≤ captured.length

/-- What each wrapper captures in a text. -/
def Captures : Wrapper → Text → Text → Prop
  | vec, text, captured => vec.Surrounds [] captured [] text
  | option, text, captured => option.CapturesBehind [] text captured
  | result, text, captured => result.CapturesBehind [] text captured
  | hashMap, text, captured => ∃ pre, hashMap.CapturesBehind pre text captured ∧
      ∀ pre' other post, hashMap.Surrounds pre' other post text → pre.length ≤ pre'.length

/-- Whether the capture of a wrapper holds the arguments that it renders. -/
def Fits (wrapper : Wrapper) (text : Text) (args : List Text) : Prop :=
  ∃ captured, wrapper.Captures text captured ∧ wrapper.arity ≤ (splitArguments captured).length ∧
    args = (splitArguments captured).take wrapper.arity

end Wrapper

/-! ### The longest capture -/

theorem newline_not_mem_beforeLastClose? : ∀ {s t : Text}, beforeLastClose? s = some t → '\n' ∉ t
  | [], _, h => by cases h
  | c :: s, t, h => by
    simp only [beforeLastClose?] at h
    split at h
    · cases h
    rename_i hc
    split at h
    · rename_i u hu
      cases h
      exact List.not_mem_cons_of_ne_of_not_mem (Ne.symm hc) (newline_not_mem_beforeLastClose? hu)
    split at h
    · cases h
      exact List.not_mem_nil
    · cases h

theorem length_le_of_beforeLastClose? {s t other post : Text} (h : beforeLastClose? s = some t)
    (hs : s = other ++ ' ' :: '>' :: post) (hn : '\n' ∉ other) : other.length ≤ t.length := by
  obtain ⟨behind, hb, _⟩ := beforeLastClose?_append post hn
  rw [← hs, h, Option.some.injEq] at hb
  rw [hb, List.length_append]
  exact Nat.le_add_right _ _

theorem beforeLastClose?_eq_some_iff {s t : Text} : beforeLastClose? s = some t ↔
    (∃ post, s = t ++ ' ' :: '>' :: post) ∧ '\n' ∉ t ∧
      ∀ other post, s = other ++ ' ' :: '>' :: post → '\n' ∉ other → other.length ≤ t.length := by
  constructor
  · intro h
    exact ⟨beforeLastClose?_eq_some h, newline_not_mem_beforeLastClose? h,
      fun _ _ => length_le_of_beforeLastClose? h⟩
  · rintro ⟨⟨post, rfl⟩, hn, hmax⟩
    obtain ⟨behind, hb, _⟩ := beforeLastClose?_append post hn
    obtain ⟨post', hpost'⟩ := beforeLastClose?_eq_some hb
    -- What was found begins with `t`, and it is no longer than `t`.
    have hle := hmax _ post' hpost' (newline_not_mem_beforeLastClose? hb)
    rw [List.length_append] at hle
    obtain rfl : behind = [] := List.eq_nil_of_length_eq_zero (by omega)
    rw [hb, List.append_nil]

namespace Wrapper

variable {wrapper : Wrapper} {pre captured post text : Text}

theorem surrounds_nil_iff {s : Text} : wrapper.Surrounds [] captured post (wrapper.opening ++ s) ↔
    s = captured ++ ' ' :: '>' :: post ∧ '\n' ∉ captured := by
  constructor
  · rintro ⟨hs, hn⟩
    exact ⟨List.append_cancel_left hs, hn⟩
  · rintro ⟨rfl, hn⟩
    exact ⟨rfl, hn⟩

theorem surrounds_cons_iff {c d : Char} :
    wrapper.Surrounds (d :: pre) captured post (c :: text) ↔
      c = d ∧ wrapper.Surrounds pre captured post text := by
  constructor
  · rintro ⟨hs, hn⟩
    obtain ⟨hc, hs⟩ := List.cons.inj hs
    exact ⟨hc, hs, hn⟩
  · rintro ⟨rfl, hs, hn⟩
    exact ⟨congrArg (c :: ·) hs, hn⟩

theorem not_surrounds_of_captureAtStart? (h : wrapper.captureAtStart? text = none) :
    ¬ wrapper.Surrounds [] captured post text := by
  rintro ⟨hs, hn⟩
  obtain ⟨behind, hb, _⟩ := beforeLastClose?_append post hn
  rw [hs, List.nil_append, captureAtStart?_opening, hb] at h
  cases h

theorem captureAtStart?_eq_some_iff :
    wrapper.captureAtStart? text = some captured ↔ wrapper.CapturesBehind [] text captured := by
  cases hstart : wrapper.opening.isPrefixOf? text with
  | none =>
    have hnone : wrapper.captureAtStart? text = none := by
      rw [captureAtStart?, hstart]
      rfl
    constructor
    · intro h
      rw [hnone] at h
      cases h
    · rintro ⟨⟨post, hs⟩, _⟩
      exact absurd hs (not_surrounds_of_captureAtStart? hnone)
  | some s =>
    obtain rfl := List.append_eq_of_isPrefixOf?_eq_some hstart
    rw [captureAtStart?_opening, beforeLastClose?_eq_some_iff]
    constructor
    · rintro ⟨⟨post, hs⟩, hn, hmax⟩
      refine ⟨⟨post, surrounds_nil_iff.2 ⟨hs, hn⟩⟩, fun other post hother => ?_⟩
      obtain ⟨hs, hn⟩ := surrounds_nil_iff.1 hother
      exact hmax other post hs hn
    · rintro ⟨⟨post, hs⟩, hmax⟩
      obtain ⟨hs, hn⟩ := surrounds_nil_iff.1 hs
      exact ⟨⟨post, hs⟩, hn, fun other post hs hn =>
        hmax other post (surrounds_nil_iff.2 ⟨hs, hn⟩)⟩

/-- The search from left to right finds the leftmost occurrence that has a capture. -/
theorem captureAnywhere?_eq_some_iff : wrapper.captureAnywhere? text = some captured ↔
    ∃ pre, wrapper.CapturesBehind pre text captured ∧
      ∀ pre' other post, wrapper.Surrounds pre' other post text → pre.length ≤ pre'.length := by
  induction text with
  | nil =>
    constructor
    · intro h
      cases h
    · rintro ⟨pre, ⟨⟨post, hs⟩, _⟩, _⟩
      have hlength := congrArg List.length hs.text_eq
      simp at hlength
  | cons c text ih =>
    cases hstart : wrapper.captureAtStart? (c :: text) with
    | some found =>
      obtain ⟨⟨post, hs⟩, hmax⟩ := captureAtStart?_eq_some_iff.1 hstart
      rw [captureAnywhere?, hstart]
      constructor
      · intro h
        cases h
        exact ⟨[], ⟨⟨post, hs⟩, hmax⟩, fun _ _ _ _ => Nat.zero_le _⟩
      · rintro ⟨pre, hpre, hleft⟩
        obtain rfl : pre = [] :=
          List.eq_nil_of_length_eq_zero (Nat.le_zero.1 (hleft [] found post hs))
        exact hstart.symm.trans (captureAtStart?_eq_some_iff.2 hpre)
    | none =>
      have hcons : ∀ {pre other post}, wrapper.Surrounds pre other post (c :: text) →
          ∃ pre', pre = c :: pre' ∧ wrapper.Surrounds pre' other post text := by
        intro pre other post hs
        cases pre with
        | nil => exact absurd hs (not_surrounds_of_captureAtStart? hstart)
        | cons d pre =>
          obtain ⟨rfl, htail⟩ := surrounds_cons_iff.1 hs
          exact ⟨pre, rfl, htail⟩
      rw [captureAnywhere?, hstart]
      refine ih.trans ⟨?_, ?_⟩
      · rintro ⟨pre, ⟨⟨post, hs⟩, hmax⟩, hleft⟩
        refine ⟨c :: pre, ⟨⟨post, surrounds_cons_iff.2 ⟨rfl, hs⟩⟩, fun other post hother => ?_⟩,
          fun pre' other post hother => ?_⟩
        · exact hmax other post (surrounds_cons_iff.1 hother).2
        · obtain ⟨pre', rfl, htail⟩ := hcons hother
          exact Nat.succ_le_succ (hleft pre' other post htail)
      · rintro ⟨pre, ⟨⟨post, hs⟩, hmax⟩, hleft⟩
        obtain ⟨pre, rfl, htail⟩ := hcons hs
        refine ⟨pre, ⟨⟨post, htail⟩, fun other post hother => ?_⟩, fun pre' other post hother => ?_⟩
        · exact hmax other post (surrounds_cons_iff.2 ⟨rfl, hother⟩)
        · exact Nat.le_of_succ_le_succ
            (hleft (c :: pre') other post (surrounds_cons_iff.2 ⟨rfl, hother⟩))

theorem captureWhole?_eq_some_iff :
    wrapper.captureWhole? text = some captured ↔ wrapper.Surrounds [] captured [] text := by
  rw [captureWhole?, Option.filter_eq_some_iff, Option.bind_eq_some_iff]
  constructor
  · rintro ⟨⟨s, hs, hcaptured⟩, hn⟩
    refine ⟨?_, by simpa using hn⟩
    rw [← List.append_eq_of_isPrefixOf?_eq_some hs,
      ← List.append_eq_of_isSuffixOf?_eq_some hcaptured]
    rfl
  · rintro ⟨rfl, hn⟩
    exact ⟨⟨_, List.isPrefixOf?_eq_some_iff_append_eq.2 rfl,
      List.isSuffixOf?_eq_some_iff_append_eq.2 rfl⟩, by simpa using hn⟩

/-- The search for a capture finds just the capture that is described. -/
theorem capture?_eq_some_iff :
    wrapper.capture? text = some captured ↔ wrapper.Captures text captured := by
  cases wrapper with
  | vec => exact captureWhole?_eq_some_iff
  | option => exact captureAtStart?_eq_some_iff
  | result => exact captureAtStart?_eq_some_iff
  | hashMap => exact captureAnywhere?_eq_some_iff

/-- Where a capture stands: only `HashMap` may stand behind other text, and nothing follows
`Vec`. -/
theorem Captures.exists_surrounds (h : wrapper.Captures text captured) :
    ∃ pre post, wrapper.Surrounds pre captured post text ∧ (wrapper ≠ hashMap → pre = []) ∧
      (wrapper = vec → post = []) ∧
        ∀ other post, wrapper.Surrounds pre other post text → other.length ≤ captured.length := by
  cases wrapper with
  | vec =>
    refine ⟨[], [], h, fun _ => rfl, fun _ => rfl, fun other post hother => ?_⟩
    have hlengths := congrArg List.length (h.text_eq.symm.trans hother.text_eq)
    simp only [List.length_append, List.length_cons, List.length_nil] at hlengths
    omega
  | option =>
    obtain ⟨⟨post, hs⟩, hmax⟩ := h
    exact ⟨[], post, hs, fun _ => rfl, nofun, hmax⟩
  | result =>
    obtain ⟨⟨post, hs⟩, hmax⟩ := h
    exact ⟨[], post, hs, fun _ => rfl, nofun, hmax⟩
  | hashMap =>
    obtain ⟨pre, ⟨⟨post, hs⟩, hmax⟩, _⟩ := h
    exact ⟨pre, post, hs, fun hne => absurd rfl hne, nofun, hmax⟩

/-! ### The first wrapper that fits -/

/-- A wrapper with the arguments that its capture holds. -/
def fit? (wrapper : Wrapper) (text : Text) : Option (Wrapped Text) :=
  (wrapper.capture? text).bind fun captured => wrapper.wrap? (splitArguments captured)

theorem fit?_eq_some_iff {w : Wrapped Text} :
    wrapper.fit? text = some w ↔ w.wrapper = wrapper ∧ wrapper.Fits text w.args := by
  rw [fit?, Option.bind_eq_some_iff]
  constructor
  · rintro ⟨captured, hcapture, hw⟩
    obtain ⟨hwrapper, hlength, hargs⟩ := wrap?_eq_some_iff.1 hw
    exact ⟨hwrapper, captured, capture?_eq_some_iff.1 hcapture, hlength, hargs⟩
  · rintro ⟨hwrapper, captured, hcapture, hlength, hargs⟩
    exact ⟨captured, capture?_eq_some_iff.2 hcapture,
      wrap?_eq_some_iff.2 ⟨hwrapper, hlength, hargs⟩⟩

theorem fit?_eq_none_iff : wrapper.fit? text = none ↔ ∀ args, ¬ wrapper.Fits text args := by
  constructor
  · rintro h args ⟨captured, hcapture, hlength, rfl⟩
    rw [fit?, capture?_eq_some_iff.2 hcapture, Option.bind_some, wrap?_eq_none_iff] at h
    exact Nat.not_lt.2 hlength h
  · intro h
    rw [Option.eq_none_iff_forall_ne_some]
    intro w hw
    exact h w.args (fit?_eq_some_iff.1 hw).2

end Wrapper

theorem value_recognizeAmong (text : Text) : ∀ wrappers : List Wrapper,
    (recognizeAmong text wrappers).value = wrappers.findSome? fun wrapper => wrapper.fit? text
  | [] => rfl
  | wrapper :: rest => by
    have ih := value_recognizeAmong text rest
    rw [List.findSome?_cons, Wrapper.fit?, recognizeAmong]
    cases wrapper.capture? text with
    | none => exact ih
    | some captured =>
      cases hw : wrapper.wrap? (splitArguments captured) with
      | none => simpa [hw] using ih
      | some w => simp [hw]

theorem fits_of_recognize {text : Text} {w : Wrapped Text} (h : (recognize text).value = some w) :
    w.wrapper.Fits text w.args := by
  rw [recognize, value_recognizeAmong] at h
  obtain ⟨wrapper, _, hfit⟩ := List.exists_of_findSome?_eq_some h
  obtain ⟨rfl, hfits⟩ := Wrapper.fit?_eq_some_iff.1 hfit
  exact hfits

/-- The arguments of a wrapper stand in its text in one piece. -/
theorem isInfix_of_mem_args {text argument : Text} {w : Wrapped Text}
    (h : (recognize text).value = some w) (ha : argument ∈ w.args) : argument <:+: text := by
  obtain ⟨captured, hcapture, _, hargs⟩ := fits_of_recognize h
  obtain ⟨pre, post, hs, _⟩ := hcapture.exists_surrounds
  have hcaptured : captured <:+: text := by
    rw [hs.text_eq]
    exact ⟨pre ++ w.wrapper.opening, ' ' :: '>' :: post, by simp⟩
  rw [hargs] at ha
  exact (isInfix_of_mem_splitArguments (List.mem_of_mem_take ha)).trans hcaptured

/-- A text is recognized as the first wrapper that fits, with the arguments that it renders, and as
none just when no wrapper fits. -/
theorem recognize_first_fit (text : Text) :
    (∀ w : Wrapped Text, (recognize text).value = some w ↔
      ∃ earlier later, [.vec, .option, .result, .hashMap] = earlier ++ w.wrapper :: later ∧
        w.wrapper.Fits text w.args ∧ ∀ other ∈ earlier, ∀ args, ¬ other.Fits text args) ∧
    ((recognize text).value = none ↔ ∀ (wrapper : Wrapper) args, ¬ wrapper.Fits text args) := by
  rw [recognize, value_recognizeAmong]
  constructor
  · intro w
    rw [List.findSome?_eq_some_iff]
    constructor
    · rintro ⟨earlier, wrapper, later, hall, hfit, hnone⟩
      obtain ⟨rfl, hfits⟩ := Wrapper.fit?_eq_some_iff.1 hfit
      exact ⟨earlier, later, hall, hfits,
        fun other hm => Wrapper.fit?_eq_none_iff.1 (hnone other hm)⟩
    · rintro ⟨earlier, later, hall, hfits, hnone⟩
      exact ⟨earlier, w.wrapper, later, hall, Wrapper.fit?_eq_some_iff.2 ⟨rfl, hfits⟩,
        fun other hm => Wrapper.fit?_eq_none_iff.2 (hnone other hm)⟩
  · rw [List.findSome?_eq_none_iff]
    constructor
    · intro h wrapper
      exact Wrapper.fit?_eq_none_iff.1 (h wrapper wrapper.mem_all)
    · intro h wrapper _
      exact Wrapper.fit?_eq_none_iff.2 (h wrapper)

/-- A map that is not closed on its line gives way to the next one. -/
example : (recognize "HashMap < K,\nV > HashMap < A, B > >".toList).value
    = some (.hashMap "A".toList "B".toList) := by decide +kernel

end TypeBridge
