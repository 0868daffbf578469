import TypeBridge.Proofs.Wrapper.Arguments
import TypeBridge.Wrapper.Recognize

/-!
What is recognized in a text that a wrapper begins. Main statements: the capture of such a text is
what stands in its brackets, perhaps with the closing bracket and some of what follows it; so the
wrapper is recognized with the arguments written in its brackets.
-/

namespace TypeBridge

/-- What a capture can hold behind the content of the brackets: nothing, or the closing bracket and
more. -/
def ClosesList (s : Text) : Prop := s = [] ∨ ∃ rest, s = ' ' :: '>' :: rest

theorem beforeLastClose?_append : ∀ {s : Text} (post : Text), '\n' ∉ s →
    ∃ behind, beforeLastClose? (s ++ ' ' :: '>' :: post) = some (s ++ behind) ∧ ClosesList behind
  | [], post, _ => by
    have hlf : ¬ (' ' : Char) = '\n' := by decide
    cases h : beforeLastClose? ('>' :: post) with
    | none =>
      refine ⟨[], ?_, .inl rfl⟩
      rw [List.nil_append, beforeLastClose?, if_neg hlf, h]
      rfl
    | some t =>
      obtain ⟨rest, hrest⟩ := beforeLastClose?_eq_some h
      cases t with
      | nil => cases hrest
      | cons c t =>
        cases hrest
        refine ⟨' ' :: '>' :: t, ?_, .inr ⟨t, rfl⟩⟩
        rw [List.nil_append, beforeLastClose?, if_neg hlf, h]
        rfl
  | c :: s, post, hn => by
    obtain ⟨hc, hs⟩ := not_or.1 (fun e => hn (List.mem_cons.2 e))
    obtain ⟨behind, hb, hclose⟩ := beforeLastClose?_append post hs
    refine ⟨behind, ?_, hclose⟩
    rw [List.cons_append, beforeLastClose?, if_neg (Ne.symm hc), hb]
    rfl

namespace Wrapper

theorem opening_vec : vec.opening = "Vec < ".toList := rfl

theorem opening_option : option.opening = "Option < ".toList := rfl

theorem opening_result : result.opening = "Result < ".toList := rfl

theorem opening_hashMap : hashMap.opening = "HashMap < ".toList := rfl

theorem space_not_mem_name (wrapper : Wrapper) : ' ' ∉ wrapper.name := by
  cases wrapper <;> decide

/-- No name of a wrapper ends with that of another. -/
theorem name_eq_append_iff {wrapper other : Wrapper} {pre : Text} :
    other.name = pre ++ wrapper.name ↔ other = wrapper ∧ pre = [] := by
  constructor
  · intro h
    have hsuffix : ∀ wrapper other : Wrapper, wrapper.name <:+ other.name → other = wrapper := by
      intro wrapper other
      cases wrapper <;> cases other <;> decide
    obtain rfl := hsuffix wrapper other ⟨pre, h.symm⟩
    exact ⟨rfl, by simpa using h⟩
  · rintro ⟨rfl, rfl⟩
    rfl

/-- An opening is found where a name without spaces ends just as the opening's own does. -/
theorem isPrefixOf?_spaced : ∀ {name text : Text} (s : Text), ' ' ∉ name → ' ' ∉ text →
    (name ++ " < ".toList).isPrefixOf? (text ++ (" < ".toList ++ s))
      = if name = text then some s else none
  | [], [], _, _, _ => List.isPrefixOf?_eq_some_iff_append_eq.2 rfl
  | [], c :: text, s, _, h => by
    have hc : ' ' ≠ c := fun e => h (List.mem_cons.2 (.inl e))
    rw [if_neg (by simp)]
    exact Text.isPrefixOf?_cons_of_ne hc _ _
  | c :: name, [], s, h, _ => by
    have hc : c ≠ ' ' := fun e => h (List.mem_cons.2 (.inl e.symm))
    rw [if_neg (by simp)]
    exact Text.isPrefixOf?_cons_of_ne hc _ _
  | c :: name, d :: text, s, hn, ht => by
    have ih := isPrefixOf?_spaced s (fun e => hn (List.mem_cons_of_mem _ e))
      fun e => ht (List.mem_cons_of_mem _ e)
    rw [List.cons_append, List.cons_append]
    by_cases hcd : c = d
    · rw [hcd, Text.isPrefixOf?_cons_self, ih]
      simp
    · rw [Text.isPrefixOf?_cons_of_ne hcd, if_neg (by simp [hcd])]

section

variable (wrapper : Wrapper) {pre s post captured : Text}

theorem isPrefixOf?_opening (other : Wrapper) (hpre : ' ' ∉ pre) (s : Text) :
    other.opening.isPrefixOf? (pre ++ (wrapper.opening ++ s))
      = if other = wrapper ∧ pre = [] then some s else none := by
  have htext : ' ' ∉ pre ++ wrapper.name := by
    rw [List.mem_append]
    rintro (h | h)
    · exact hpre h
    · exact wrapper.space_not_mem_name h
  have hspaced := isPrefixOf?_spaced s other.space_not_mem_name htext
  rw [List.append_assoc, ← List.append_assoc wrapper.name] at hspaced
  rw [opening, opening, hspaced]
  exact if_congr name_eq_append_iff rfl rfl

theorem captureAtStart?_opening (s : Text) :
    wrapper.captureAtStart? (wrapper.opening ++ s) = beforeLastClose? s := by
  have hopening : wrapper.opening.isPrefixOf? (wrapper.opening ++ s) = some s :=
    List.isPrefixOf?_eq_some_iff_append_eq.2 rfl
  rw [captureAtStart?, hopening]
  rfl

/-- Text without spaces in front of a wrapper does not hide it. -/
theorem captureAnywhere?_opening (hpre : ' ' ∉ pre) (h : beforeLastClose? s = some captured) :
    wrapper.captureAnywhere? (pre ++ (wrapper.opening ++ s)) = some captured := by
  induction pre with
  | nil =>
    have hstart := (captureAtStart?_opening wrapper s).trans h
    cases ho : wrapper.opening with
    | nil =>
      have hlength := wrapper.length_opening
      rw [ho] at hlength
      exact absurd hlength (by decide)
    | cons c rest =>
      rw [ho] at hstart
      rw [List.nil_append, List.cons_append, captureAnywhere?, ← List.cons_append, hstart]
  | cons c pre ih =>
    have hmiss : wrapper.captureAtStart? (c :: pre ++ (wrapper.opening ++ s)) = none := by
      rw [captureAtStart?, isPrefixOf?_opening wrapper wrapper hpre, if_neg (by simp)]
      rfl
    rw [List.cons_append] at hmiss ⊢
    rw [captureAnywhere?, hmiss]
    exact ih fun e => hpre (List.mem_cons_of_mem _ e)

/-- The capture of a wrapper that begins a text. Only `HashMap` may stand behind other text, and
`Vec` has a capture only if nothing follows it. -/
theorem exists_capture (hs : '\n' ∉ s) (hpre : ' ' ∉ pre) (hstart : wrapper ≠ hashMap → pre = [])
    (hpost : wrapper = vec → post = []) :
    ∃ behind, wrapper.capture? (pre ++ (wrapper.opening ++ (s ++ ' ' :: '>' :: post)))
      = some (s ++ behind) ∧ ClosesList behind := by
  obtain ⟨behind, hb, hclose⟩ := beforeLastClose?_append post hs
  have hat := (captureAtStart?_opening wrapper (s ++ ' ' :: '>' :: post)).trans hb
  cases wrapper with
  | vec =>
    have hend : " >".toList.isSuffixOf? (s ++ ' ' :: '>' :: []) = some s :=
      List.isSuffixOf?_eq_some_iff_append_eq.2 rfl
    have hopening : vec.opening.isPrefixOf? (vec.opening ++ (s ++ ' ' :: '>' :: []))
        = some (s ++ ' ' :: '>' :: []) := List.isPrefixOf?_eq_some_iff_append_eq.2 rfl
    rw [hpost rfl, hstart nofun, List.nil_append]
    refine ⟨[], ?_, .inl rfl⟩
    rw [capture?, captureWhole?, hopening, Option.bind_some, hend, List.append_nil]
    simpa [Option.filter] using hs
  | option =>
    rw [hstart nofun]
    exact ⟨behind, hat, hclose⟩
  | result =>
    rw [hstart nofun]
    exact ⟨behind, hat, hclose⟩
  | hashMap => exact ⟨behind, captureAnywhere?_opening hashMap hpre hb, hclose⟩

end

end Wrapper

theorem recognizeAmong_cons_of_none {text : Text} {wrapper : Wrapper} (rest : List Wrapper)
    (h : wrapper.capture? text = none) :
    recognizeAmong text (wrapper :: rest) = recognizeAmong text rest := by
  rw [recognizeAmong, h]

theorem recognizeAmong_cons_of_some {text captured : Text} {wrapper : Wrapper} {w : Wrapped Text}
    (rest : List Wrapper) (h : wrapper.capture? text = some captured)
    (hw : wrapper.wrap? (splitArguments captured) = some w) :
    recognizeAmong text (wrapper :: rest) = pure (some w) := by
  simp only [recognizeAmong, h, hw]

/-- A wrapper is recognized with the arguments that its capture holds. -/
theorem recognize_opening {wrapper : Wrapper} {w : Wrapped Text} {pre s captured : Text}
    (hpre : ' ' ∉ pre) (h : wrapper.capture? (pre ++ (wrapper.opening ++ s)) = some captured)
    (hw : wrapper.wrap? (splitArguments captured) = some w) :
    recognize (pre ++ (wrapper.opening ++ s)) = pure (some w) := by
  have hnone : ∀ other : Wrapper, other ≠ wrapper → other ≠ .hashMap →
      other.capture? (pre ++ (wrapper.opening ++ s)) = none := by
    intro other hne hmap
    have hstart : other.opening.isPrefixOf? (pre ++ (wrapper.opening ++ s)) = none := by
      rw [Wrapper.isPrefixOf?_opening wrapper other hpre, if_neg fun e => hne e.1]
    cases other with
    | vec => rw [Wrapper.capture?, Wrapper.captureWhole?, hstart]; rfl
    | option => rw [Wrapper.capture?, Wrapper.captureAtStart?, hstart]; rfl
    | result => rw [Wrapper.capture?, Wrapper.captureAtStart?, hstart]; rfl
    | hashMap => exact absurd rfl hmap
  have hit := fun rest => recognizeAmong_cons_of_some rest h hw
  have miss := fun other rest hne hmap => recognizeAmong_cons_of_none rest (hnone other hne hmap)
  unfold recognize Wrapper.all
  cases wrapper with
  | vec => exact hit _
  | option =>
    rw [miss .vec _ (by decide) (by decide)]
    exact hit _
  | result =>
    rw [miss .vec _ (by decide) (by decide), miss .option _ (by decide) (by decide)]
    exact hit _
  | hashMap =>
    rw [miss .vec _ (by decide) (by decide), miss .option _ (by decide) (by decide),
      miss .result _ (by decide) (by decide)]
    exact hit _

/-! ### Arguments in brackets -/

/-- What can follow the arguments that a wrapper renders: nothing, or further text in the list. -/
def FurtherArguments (more : Text) : Prop :=
  more = [] ∨ ∃ u, WellNested u ∧ '\n' ∉ u ∧ more = ", ".toList ++ u

theorem FurtherArguments.not_mem_newline {more : Text} (h : FurtherArguments more) :
    '\n' ∉ more := by
  rcases h with rfl | ⟨u, _, hu, rfl⟩
  · simp
  · simpa using hu

/-- What ends the arguments that a wrapper renders: the end of the text, a comma, or the closing
bracket. -/
def EndsArguments (s : Text) : Prop :=
  s = [] ∨ (∃ rest, s = ',' :: rest) ∨ ∃ rest, s = ' ' :: '>' :: rest

theorem FurtherArguments.endsArguments {more behind : Text} (hm : FurtherArguments more)
    (hc : ClosesList behind) : EndsArguments (more ++ behind) := by
  rcases hm with rfl | ⟨u, _, _, rfl⟩
  · exact hc.imp id .inr
  · exact .inr (.inl ⟨_, rfl⟩)

theorem exists_argumentsFrom_one {before : Option Char} {t behind : Text} (ht : IsArgument t)
    (hb : before ≠ some '-') (he : EndsArguments behind) :
    ∃ rest, argumentsFrom before (t ++ behind) = Text.strip t :: rest := by
  rcases he with rfl | ⟨rest, rfl⟩ | ⟨rest, rfl⟩
  · rw [List.append_nil]
    exact ⟨[], ht.argumentsFrom_end hb⟩
  · exact ⟨_, ht.argumentsFrom_comma hb rest⟩
  · exact ⟨[], ht.argumentsFrom_close hb rest⟩

/-- The arguments that begin a list are cut off one after the other. -/
theorem exists_splitArguments {texts : List Text} {behind : Text} (hne : texts ≠ [])
    (ht : ∀ t ∈ texts, IsArgument t) (he : EndsArguments behind) :
    ∃ rest, splitArguments (", ".toList.intercalate texts ++ behind)
      = texts.map Text.strip ++ rest := by
  have hfrom : ∀ {before : Option Char} {t : Text} {ts : List Text}, before ≠ some '-' →
      (∀ s ∈ t :: ts, IsArgument s) →
        ∃ rest, argumentsFrom before (", ".toList.intercalate (t :: ts) ++ behind)
          = (t :: ts).map Text.strip ++ rest := by
    intro before t ts hb ht
    induction ts generalizing t before with
    | nil =>
      rw [List.intercalate_singleton]
      exact exists_argumentsFrom_one (ht t List.mem_cons_self) hb he
    | cons next ts ih =>
      obtain ⟨ht, hts⟩ := List.forall_mem_cons.1 ht
      obtain ⟨hnext, hts⟩ := List.forall_mem_cons.1 hts
      -- The space behind the comma is read as part of the next argument, and stripped with it.
      have hspaced : ∀ s ∈ (' ' :: next) :: ts, IsArgument s :=
        List.forall_mem_cons.2 ⟨hnext.cons_space, hts⟩
      have hcomma : some ',' ≠ some '-' := by decide
      obtain ⟨rest, hrest⟩ := ih hcomma hspaced
      refine ⟨rest, ?_⟩
      have hjoin : ", ".toList.intercalate (t :: next :: ts) ++ behind
          = t ++ ',' :: (", ".toList.intercalate ((' ' :: next) :: ts) ++ behind) := by
        simp [Text.intercalate_cons]
      rw [hjoin, ht.argumentsFrom_comma hb, hrest, List.map_cons, List.map_cons,
        Text.strip_cons_space, List.map_cons]
      rfl
  cases texts with
  | nil => exact absurd rfl hne
  | cons t ts =>
    rw [splitArguments_eq]
    exact hfrom (by decide) ht

end TypeBridge
