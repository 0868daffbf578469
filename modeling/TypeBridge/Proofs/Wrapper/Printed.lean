import TypeBridge.Proofs.TypeExpr.Nested
import TypeBridge.Proofs.TypeExpr.Mirror
import TypeBridge.Proofs.Wrapper.Captured
import TypeBridge.Proofs.Wrapper.Compositional

/-!
Wrappers in the printed forms of what was read. Main statement: a wrapper that is read from
well-nested text is recognized in its printed form, with the printed forms of the arguments that it
renders, if these stand on the line that the wrapper begins and a closing bracket behind them does
too; and only then, but for `HashMap`, which can also be met further on.
-/

namespace TypeBridge

/-- Whether a wrapper is recognized in a text, with given arguments. -/
def RecognizedAs (text : Text) (wrapper : Wrapper) (args : List Text) : Prop :=
  ∃ w, recognize text = pure (some w) ∧ w.wrapper = wrapper ∧ w.args = args

/-- Whether the texts that a wrapper renders stand on the line that the wrapper begins, with a
closing bracket behind them. The bracket of `Vec` has to end the text. -/
def ClosesOnLine (text : Text) (wrapper : Wrapper) (rendered : List Text) : Prop :=
  ∃ behind,
    let line := wrapper.opening ++ (", ".toList.intercalate rendered ++ behind ++ " >".toList)
    '\n' ∉ line ∧ line <+: text ∧ (wrapper = .vec → line = text)

/-! ### Captures on one line -/

/-- The arguments of a recognized wrapper are those in its capture. -/
theorem RecognizedAs.fits {text : Text} {wrapper : Wrapper} {args : List Text}
    (h : RecognizedAs text wrapper args) : wrapper.Fits text args := by
  obtain ⟨w, hw, rfl, rfl⟩ := h
  exact fits_of_recognize (congrArg Logged.value hw)

theorem RecognizedAs.newline_not_mem {text : Text} {wrapper : Wrapper} {args : List Text}
    (h : RecognizedAs text wrapper args) : ∀ t ∈ args, '\n' ∉ t := by
  obtain ⟨captured, hcapture, _, rfl⟩ := h.fits
  obtain ⟨_, _, hs, _⟩ := hcapture.exists_surrounds
  intro t ht hn
  exact hs.newline_not_mem ((isInfix_of_mem_splitArguments (List.mem_of_mem_take ht)).subset hn)

/-! ### Printed lists -/

theorem Undivided.isArgument {t : Text} (h : Undivided t) (hb : ¬ Text.Blank t) (hn : '\n' ∉ t) :
    IsArgument t :=
  ⟨h.wellNested, not_hasOuterComma_of_depthAfter? h.depthAfter?_eq, hb, hn⟩

section

variable {wrapper : Wrapper} {rendered : List Text} {more : Text}

theorem closesOnLine_of_newline_not_mem
    (h : '\n' ∉ wrapper.opening ++ (", ".toList.intercalate rendered ++ more ++ " >".toList)) :
    ClosesOnLine (wrapper.opening ++ (", ".toList.intercalate rendered ++ more ++ " >".toList))
      wrapper rendered :=
  ⟨more, h, List.prefix_rfl, fun _ => rfl⟩

/-- A wrapper is recognized with its arguments if a comma or the closing bracket ends them. -/
theorem recognizedAs_of_arguments {behind post : Text} (hlength : rendered.length = wrapper.arity)
    (ht : ∀ t ∈ rendered, Text.Trimmed t ∧ IsArgument t)
    (hbehind : behind = [] ∨ ∃ rest, behind = ',' :: rest)
    (hline : '\n' ∉ ", ".toList.intercalate rendered ++ behind)
    (hpost : wrapper = .vec → post = []) :
    RecognizedAs (wrapper.opening
      ++ (", ".toList.intercalate rendered ++ behind ++ ' ' :: '>' :: post)) wrapper rendered := by
  have hne : rendered ≠ [] := by
    rintro rfl
    cases wrapper <;> cases hlength
  obtain ⟨after, hcapture, hclose⟩ :=
    wrapper.exists_capture hline List.not_mem_nil (fun _ => rfl) hpost
  have hends : EndsArguments (behind ++ after) := by
    rcases hbehind with rfl | ⟨rest, rfl⟩
    · exact hclose.imp id .inr
    · exact .inr (.inl ⟨_, rfl⟩)
  obtain ⟨rest, hrest⟩ := exists_splitArguments hne (fun t hm => (ht t hm).2) hends
  have hstrip : rendered.map Text.strip = rendered :=
    (List.map_congr_left fun t hm => (ht t hm).1.strip_eq).trans (List.map_id _)
  rw [← List.append_assoc, hstrip] at hrest
  have hwrap : wrapper.wrap? rendered ≠ none := fun hnone =>
    Nat.lt_irrefl _ (hlength ▸ Wrapper.wrap?_eq_none_iff.1 hnone)
  obtain ⟨w, hw⟩ := Option.ne_none_iff_exists'.1 hwrap
  obtain ⟨hwrapper, _, hargs⟩ := Wrapper.wrap?_eq_some_iff.1 hw
  have hsplit : wrapper.wrap? (splitArguments (", ".toList.intercalate rendered ++ behind ++ after))
      = some w := by
    rw [hrest]
    exact Wrapper.wrap?_append hw rest
  refine ⟨w, recognize_opening List.not_mem_nil hcapture hsplit, hwrapper, ?_⟩
  rw [hargs, ← hlength, List.take_length]

/-- A wrapper is recognized with the texts that it renders if they are closed on their line. -/
theorem recognizedAs_of_closesOnLine (hlength : rendered.length = wrapper.arity)
    (ht : ∀ t ∈ rendered, Text.Trimmed t ∧ t ≠ [] ∧ Undivided t) (hm : ∀ c ∈ more.head?, c = ',')
    (h : ClosesOnLine (wrapper.opening ++ (", ".toList.intercalate rendered ++ more ++ " >".toList))
      wrapper rendered) :
    RecognizedAs (wrapper.opening ++ (", ".toList.intercalate rendered ++ more ++ " >".toList))
      wrapper rendered := by
  obtain ⟨behind, hline, ⟨post, hpost⟩, hvec⟩ := h
  have htail : behind ++ " >".toList ++ post = more ++ " >".toList := by
    simpa [List.append_assoc] using hpost
  have hbehind : behind = [] ∨ ∃ rest, behind = ',' :: rest := by
    cases behind with
    | nil => exact .inl rfl
    | cons c behind =>
      cases more with
      | nil =>
        have hlengths := congrArg List.length htail
        simp only [List.length_append, List.length_cons, List.length_nil] at hlengths
        omega
      | cons d more =>
        obtain ⟨rfl, _⟩ := List.cons.inj htail
        exact .inr ⟨behind, by rw [hm c rfl]⟩
  have hbody : '\n' ∉ ", ".toList.intercalate rendered ++ behind := fun hn =>
    hline (List.mem_append_right _ (List.mem_append_left _ hn))
  have harguments : ∀ t ∈ rendered, Text.Trimmed t ∧ IsArgument t := by
    intro t hmem
    obtain ⟨htrim, hnil, hu⟩ := ht t hmem
    refine ⟨htrim, hu.isArgument (htrim.not_blank hnil) fun hn => hbody ?_⟩
    exact List.mem_append_left _ (Text.mem_intercalate_of_mem _ hmem hn)
  have hend : wrapper = .vec → post = [] := fun he =>
    List.append_right_eq_self.1 (hpost.trans (hvec he).symm)
  have htext : wrapper.opening ++ (", ".toList.intercalate rendered ++ more ++ " >".toList)
      = wrapper.opening ++ (", ".toList.intercalate rendered ++ behind ++ ' ' :: '>' :: post) := by
    rw [← hpost]
    simp
  rw [htext]
  exact recognizedAs_of_arguments hlength harguments hbehind hbody hend

/-- A wrapper that has to begin the text is recognized only with texts that are closed on their
line. -/
theorem RecognizedAs.closesOnLine {text : Text} (h : RecognizedAs text wrapper rendered)
    (hmap : wrapper ≠ .hashMap) (hlength : rendered.length = wrapper.arity)
    (hp : wrapper.opening ++ ", ".toList.intercalate rendered <+: text) :
    ClosesOnLine text wrapper rendered := by
  obtain ⟨captured, hcapture, _, hargs⟩ := h.fits
  obtain ⟨pre, post, ⟨htext, hline⟩, hpre, hvec, _⟩ := hcapture.exists_surrounds
  rw [hpre hmap, List.nil_append] at htext
  have harity : wrapper.arity = 1 := by
    cases wrapper with
    | hashMap => exact absurd rfl hmap
    | _ => rfl
  obtain ⟨t, rfl⟩ := List.length_eq_one_iff.1 (hlength.trans harity)
  have hmem : t ∈ splitArguments captured :=
    List.mem_of_mem_take (hargs ▸ List.mem_singleton_self t)
  have hbegins : t <+: captured := by
    obtain ⟨tail, htail⟩ := hp
    rw [List.intercalate_singleton, htext, List.append_assoc] at htail
    exact List.prefix_of_prefix_length_le ⟨tail, List.append_cancel_left htail⟩
      (List.prefix_append _ _) (length_le_of_mem_splitArguments hmem)
  obtain ⟨behind, rfl⟩ := hbegins
  rw [ClosesOnLine, List.intercalate_singleton]
  refine ⟨behind, fun hn => ?_, ?_, fun he => ?_⟩
  · have hopening : '\n' ∉ wrapper.opening := by cases wrapper <;> decide
    rcases List.mem_append.1 hn with hn | hn
    · exact hopening hn
    rcases List.mem_append.1 hn with hn | hn
    · exact hline hn
    · exact absurd hn (by decide)
  · exact ⟨post, by simp [htext]⟩
  · rw [htext, hvec he]
    rfl

end

/-! ### Readings -/

section

variable {s name : Text} {args : List Argument} {selfType : Option Text} {es : List TypeExpr}

theorem trimmed_print_of_argument {piece : Text} {a : Argument} {e : TypeExpr}
    (hpiece : Layer.argument? piece = some a) (hread : a.read = .ok e) :
    Text.Trimmed e.print ∧ e.print ≠ [] := by
  cases a with
  | binding t =>
    obtain ⟨rfl, hbinding⟩ := Layer.argument?_eq_binding_iff.1 hpiece
    cases hread
    refine ⟨Text.trimmed_strip piece, fun hnil => ?_⟩
    rw [show Text.strip piece = [] from hnil] at hbinding
    exact Bool.false_ne_true hbinding
  | type t =>
    have hm := mirrors_of_parseType hread
    exact ⟨hm.trimmed, hm.ne_nil⟩

theorem trimmed_print_of_path (hpeel : Layer.peel? s = .ok (.path name args selfType))
    (hw : WellNested s) (hes : List.Forall₂ (fun (a : Argument) e => a.read = .ok e) args es) :
    ∀ e ∈ es, Text.Trimmed e.print ∧ e.print ≠ [] := by
  have hargs := Layer.inPiece_of_ofStripped? (wellNested_strip_iff.2 hw) hpeel
  refine forall_mem_of_forall₂ hes hargs ?_
  rintro a e ⟨piece, hpiece, _⟩ hread
  exact trimmed_print_of_argument hpiece hread

end

/-- What a wrapper prints behind the arguments that it renders. -/
theorem exists_print_wrapper {wrapper : Wrapper} {args : List TypeExpr}
    (hlength : wrapper.arity ≤ args.length) : ∃ more : Text, (∀ c ∈ more.head?, c = ',') ∧
      (TypeExpr.path wrapper.name args none).print = wrapper.opening ++ (", ".toList.intercalate
        ((args.take wrapper.arity).map TypeExpr.print) ++ more ++ " >".toList) := by
  have hfirst : args.take wrapper.arity ≠ [] := by
    intro hnil
    have htake := List.length_take_of_le hlength
    rw [hnil] at htake
    cases wrapper <;> cases htake
  have hprint := print_path_append wrapper.name hfirst (args.drop wrapper.arity)
  rw [List.take_append_drop, ← List.append_assoc] at hprint
  refine ⟨_, fun c hc => ?_, hprint⟩
  split at hc
  · cases hc
  · cases hc
    rfl

/-- A wrapper that is read from well-nested text is recognized in its printed form if the arguments
that it renders are closed on their line, and without line feeds in the printed form they are. Only
`HashMap`, which can be met further on, may be recognized otherwise, and never with an argument over
several lines. -/
theorem recognizedAs_print {s : Text} {wrapper : Wrapper} {args : List TypeExpr}
    (hs : WellNested s) (h : parse s = .ok (.path wrapper.name args none))
    (hlength : wrapper.arity ≤ args.length) :
    let p := (TypeExpr.path wrapper.name args none).print
    let rendered := (args.take wrapper.arity).map TypeExpr.print
    ('\n' ∉ p → ClosesOnLine p wrapper rendered) ∧
      (ClosesOnLine p wrapper rendered → RecognizedAs p wrapper rendered) ∧
      (RecognizedAs p wrapper rendered → (∀ t ∈ rendered, '\n' ∉ t) ∧
        (wrapper ≠ .hashMap → ClosesOnLine p wrapper rendered)) := by
  obtain ⟨layer, hpeel, hread⟩ := parseType_eq_ok_iff.1 (parse_eq_ok_iff.1 h)
  obtain ⟨arguments, rfl, hes⟩ := Layer.read_eq_path_iff.1 hread
  have htrimmed := trimmed_print_of_path hpeel hs hes
  have hundivided := undivided_print_of_path hs hpeel hes
  obtain ⟨more, hmore, hprint⟩ := exists_print_wrapper hlength
  have hrendered : ((args.take wrapper.arity).map TypeExpr.print).length = wrapper.arity := by
    rw [List.length_map, List.length_take_of_le hlength]
  have hparts : ∀ t ∈ (args.take wrapper.arity).map TypeExpr.print,
      Text.Trimmed t ∧ t ≠ [] ∧ Undivided t := by
    refine List.forall_mem_map.2 fun e he => ?_
    have he := List.mem_of_mem_take he
    exact ⟨(htrimmed e he).1, (htrimmed e he).2, hundivided e he⟩
  intro p rendered
  have hp : p = wrapper.opening ++ (", ".toList.intercalate rendered ++ more ++ " >".toList) :=
    hprint
  rw [hp]
  refine ⟨closesOnLine_of_newline_not_mem, recognizedAs_of_closesOnLine hrendered hparts hmore,
    fun hr => ⟨hr.newline_not_mem, fun hmap => hr.closesOnLine hmap hrendered ?_⟩⟩
  rw [List.append_assoc, ← List.append_assoc wrapper.opening]
  exact List.prefix_append _ _

/-- A map is recognized with the text of an array in it, but not if a line ends in the array. -/
theorem recognizedAs_print_array :
    let key := TypeExpr.path "K".toList [] none
    let array := TypeExpr.verbatim .array "[u8; 4]".toList
    let lines := TypeExpr.verbatim .array "[u8;\n4]".toList
    let e := TypeExpr.path Wrapper.hashMap.name [key, array] none
    let f := TypeExpr.path Wrapper.vec.name [lines] none
    (WellNested "HashMap<K,[u8; 4]>".toList ∧ parse "HashMap<K,[u8; 4]>".toList = .ok e ∧
        RecognizedAs e.print .hashMap ["K".toList, "[u8; 4]".toList]) ∧
      WellNested "Vec<[u8;\n4]>".toList ∧ parse "Vec<[u8;\n4]>".toList = .ok f ∧
        ¬ RecognizedAs f.print .vec ["[u8;\n4]".toList] := by
  intro key array lines e f
  have hkey : parseType "K".toList = .ok key :=
    parseType_eq_ok_iff.2 ⟨.path _ [] none, by decide +kernel,
      Layer.read_path_eq_ok.2 ⟨_, .nil, rfl⟩⟩
  have harray : parseType "[u8; 4]".toList = .ok array :=
    parseType_eq_ok_iff.2 ⟨.verbatim .array _, by decide +kernel, rfl⟩
  have hlines : parseType "[u8;\n4]".toList = .ok lines :=
    parseType_eq_ok_iff.2 ⟨.verbatim .array _, by decide +kernel, rfl⟩
  have he : parse "HashMap<K,[u8; 4]>".toList = .ok e :=
    parse_eq_ok_iff.2 (parseType_eq_ok_iff.2
      ⟨.path _ [.type "K".toList, .type "[u8; 4]".toList] none, by decide +kernel,
        Layer.read_path_eq_ok.2 ⟨_, .cons hkey (.cons harray .nil), rfl⟩⟩)
  have hf : parse "Vec<[u8;\n4]>".toList = .ok f :=
    parse_eq_ok_iff.2 (parseType_eq_ok_iff.2 ⟨.path _ [.type "[u8;\n4]".toList] none,
      by decide +kernel, Layer.read_path_eq_ok.2 ⟨_, .cons hlines .nil, rfl⟩⟩)
  have hwe : WellNested "HashMap<K,[u8; 4]>".toList := by decide +kernel
  have hwf : WellNested "Vec<[u8;\n4]>".toList := by decide +kernel
  have hline : '\n' ∉ e.print := by decide
  obtain ⟨hcloses, hrecognized, _⟩ := recognizedAs_print hwe he (Nat.le_refl 2)
  obtain ⟨_, _, honly⟩ := recognizedAs_print hwf hf (Nat.le_refl 1)
  refine ⟨⟨hwe, he, hrecognized (hcloses hline)⟩, hwf, hf, fun hr => ?_⟩
  exact absurd ((honly hr).1 lines.print List.mem_cons_self) (by decide)

end TypeBridge
