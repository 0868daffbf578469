import TypeBridge.Proofs.CommandLine.Outcome

/-!
What a run reports. Every text that an event names is quoted, so an event is one line whatever the
types and the rows hold. Main statement: a run that reports leaves the same exit code and prints the
same as one that does not, and its report can be taken apart again into its events.
-/

namespace TypeBridge

/-! ### Printable text -/

namespace Text

/-- Whether every character of a text is printable. -/
def Printable (s : Text) : Prop := ∀ c ∈ s, isPrintable c = true

instance (s : Text) : Decidable (Printable s) := inferInstanceAs (Decidable (∀ c ∈ s, _))

theorem Printable.append {s t : Text} (hs : Printable s) (ht : Printable t) : Printable (s ++ t) :=
  List.forall_mem_append.2 ⟨hs, ht⟩

theorem printable_quoted (s : Text) : Printable (quoted s) := fun _ => isPrintable_of_mem_quoted

theorem isPrintable_of_isDigit {c : Char} (h : c.isDigit = true) : isPrintable c = true := by
  obtain ⟨hlow, hhigh⟩ : 0x30 ≤ c.toNat ∧ c.toNat ≤ 0x39 := by
    simp only [Char.isDigit, Bool.and_eq_true, decide_eq_true_eq, ge_iff_le,
      UInt32.le_iff_toNat_le] at h
    exact h
  rw [isPrintable, if_pos (by omega), Bool.and_eq_true, decide_eq_true_eq, decide_eq_true_eq]
  omega

theorem printable_toDigits (n : Nat) : Printable (Nat.toDigits 10 n) := fun _ hc =>
  isPrintable_of_isDigit (Nat.isDigit_of_mem_toDigits (by decide) (by decide) hc)

/-- Whether a line ends at a character. -/
def isLineEnd (c : Char) : Bool := ['\n', '\r', '\u0085', '\u2028', '\u2029'].contains c

theorem isLineEnd_of_isPrintable {c : Char} (h : isPrintable c = true) : isLineEnd c = false := by
  have hhidden : ∀ d ∈ ['\n', '\r', '\u0085', '\u2028', '\u2029'], isPrintable d = false := by
    decide +kernel
  by_contra hend
  have hmem := List.contains_iff_mem.1 (eq_true_of_ne_false hend)
  exact absurd (h.symm.trans (hhidden c hmem)) nofun

end Text

/-! ### Lines -/

theorem unlines_append (lines lines' : List Text) :
    unlines (lines ++ lines') = unlines lines ++ unlines lines' := List.flatMap_append

/-- Lines without a line end in them are what stands before the line ends, and nothing follows the
last. -/
theorem splitOnP_unlines {p : Char → Bool} (hp : p '\n' = true) {lines : List Text}
    (h : ∀ line ∈ lines, ∀ c ∈ line, p c = false) :
    List.splitOnP p (unlines lines) = lines ++ [[]] := by
  induction lines with
  | nil => rfl
  | cons line lines ih =>
    obtain ⟨hline, hlines⟩ := List.forall_mem_cons.1 h
    have hcons : unlines (line :: lines) = line ++ '\n' :: unlines lines := by
      rw [unlines, List.flatMap_cons, List.append_assoc]
      rfl
    rw [hcons, List.splitOnP_append_cons_of_forall_mem hline '\n' hp, ih hlines,
      List.cons_append]

/-! ### Events -/

namespace Event

theorem printable_shapeWord (e : TypeExpr) : Text.Printable (shapeWord e) := by
  cases e <;> exact of_decide_eq_true rfl

theorem printable_logger (event : Event) : Text.Printable event.logger := by
  cases event <;> exact of_decide_eq_true rfl

/-- Every text that a message names is quoted, and its own words are printable. -/
theorem printable_message (event : Event) : Text.Printable event.message := by
  cases event with
  | tooFewArguments wrapper text captured =>
    have hname : Text.Printable wrapper.name := by cases wrapper <;> exact of_decide_eq_true rfl
    have hmatched : Text.Printable " pattern matched ".toList := by decide +kernel
    have hbut : Text.Printable " but captured ".toList := by decide +kernel
    have hexpected : Text.Printable " argument(s), expected ".toList := by decide +kernel
    exact (((((hname.append hmatched).append (Text.printable_quoted text)).append hbut).append
      (Text.printable_toDigits captured)).append hexpected).append
        (Text.printable_toDigits wrapper.arity)
  | noMapping e fallback =>
    have hmapping : Text.Printable "No TypeScript mapping for ".toList := by decide +kernel
    have hspace : Text.Printable [' '] := by decide +kernel
    have husing : Text.Printable ", using ".toList := by decide +kernel
    exact ((((hmapping.append (printable_shapeWord e)).append hspace).append
      (Text.printable_quoted e.print)).append husing).append (Text.printable_quoted fallback)
  | passedThrough text =>
    have hwords : Text.Printable "Passing through unrecognized generic type ".toList := by
      decide +kernel
    exact hwords.append (Text.printable_quoted text)
  | converted text =>
    have hwords : Text.Printable "Translated ".toList := by decide +kernel
    exact hwords.append (Text.printable_quoted text)

theorem printable_line (event : Event) : Text.Printable event.line := by
  have hlevel : Text.Printable (level ++ [' ']) := by decide +kernel
  have hcolon : Text.Printable ": ".toList := by decide +kernel
  exact ((hlevel.append event.printable_logger).append hcolon).append event.printable_message

/-- No line of a report is broken off by what the event names. -/
theorem isLineEnd_of_mem_line {event : Event} {c : Char} (h : c ∈ event.line) :
    Text.isLineEnd c = false :=
  Text.isLineEnd_of_isPrintable (event.printable_line c h)

end Event

/-! ### Runs -/

/-- The events of the types before the first that cannot be converted, in order: those of its
conversion, and then that it is finished. -/
def Settings.events (settings : Settings) (config : Config) : List Text → List Event
  | [] => []
  | s :: rest =>
    match settings.source s with
    | .error _ => []
    | .ok source =>
      (convert config settings.topLevel source).log ++ .converted s :: settings.events config rest

/-- The events of a request; a faulty row ends it before the first. -/
def Request.events (request : Request) : List Event :=
  match Scalar.readRows request.settings.primitives with
  | .error _ => []
  | .ok rows => request.settings.events (request.settings.config rows) request.types

namespace Settings

/-- The same settings with a choice whether events are reported. -/
def reporting (settings : Settings) (verbose : Bool) : Settings :=
  { settings with verbose := verbose }

variable {settings : Settings} {config : Config}

theorem report_false (s : Text) (log : List Event) :
    (settings.reporting false).report s log = [] := rfl

theorem report_true (s : Text) (log : List Event) :
    (settings.reporting true).report s log
      = unlines (log.map Event.line ++ [(Event.converted s).line]) := by
  have hreport : (settings.reporting true).report s log
      = unlines ((log ++ [Event.converted s]).map Event.line) := rfl
  rw [hreport, List.map_append]
  rfl

/-- A run that reports writes the lines of its events before what it writes anyway. -/
theorem runTypes_reporting (types : List Text) :
    (settings.reporting true).runTypes config types
      = Outcome.after [] (unlines ((settings.events config types).map Event.line))
          ((settings.reporting false).runTypes config types) := by
  induction types with
  | nil => rfl
  | cons s rest ih =>
    have hsource : ∀ verbose, (settings.reporting verbose).source s = settings.source s :=
      fun _ => rfl
    cases h : settings.source s with
    | error e =>
      rw [runTypes_cons_of_error _ config ((hsource true).trans h),
        runTypes_cons_of_error _ config ((hsource false).trans h), events, h]
      rfl
    | ok source =>
      rw [runTypes_cons_of_ok _ config ((hsource true).trans h),
        runTypes_cons_of_ok _ config ((hsource false).trans h), events, h, report_true,
        report_false, ih]
      have hlines : ∀ (log : List Event) (rest : List Event),
          unlines ((log ++ .converted s :: rest).map Event.line)
            = unlines (log.map Event.line ++ [(Event.converted s).line])
              ++ unlines (rest.map Event.line) := by
        intro log rest
        rw [← unlines_append, List.map_append, List.append_assoc]
        rfl
      simp only [Outcome.after, hlines, List.nil_append, List.append_assoc]
      rfl

/-- A run that reports nothing writes only why it fails. -/
theorem err_runTypes_quiet {types : List Text}
    (h : ((settings.reporting false).runTypes config types).exitCode = 0) :
    ((settings.reporting false).runTypes config types).err = [] := by
  induction types with
  | nil => rfl
  | cons s rest ih =>
    cases hsource : (settings.reporting false).source s with
    | error e =>
      rw [runTypes_cons_of_error _ config hsource] at h
      cases h
    | ok source =>
      rw [runTypes_cons_of_ok _ config hsource, report_false] at h ⊢
      exact ih h

end Settings

namespace Request

theorem run_reporting (settings : Settings) (types : List Text) :
    run ⟨types, settings.reporting true⟩
      = Outcome.after [] (unlines ((events ⟨types, settings⟩).map Event.line))
          (run ⟨types, settings.reporting false⟩) := by
  simp only [run, events, Settings.reporting]
  cases Scalar.readRows settings.primitives with
  | error row => rfl
  | ok rows => exact Settings.runTypes_reporting types

theorem err_run_quiet {settings : Settings} {types : List Text}
    (h : (run ⟨types, settings.reporting false⟩).exitCode = 0) :
    (run ⟨types, settings.reporting false⟩).err = [] := by
  simp only [run, Settings.reporting] at h ⊢
  cases hrows : Scalar.readRows settings.primitives with
  | error row =>
    rw [hrows] at h
    cases h
  | ok rows =>
    rw [hrows] at h
    exact Settings.err_runTypes_quiet h

/-- Reporting changes neither the exit code nor what is printed. A run that succeeds reports one
line for each event, in order, and nothing else; no line end stands inside a line. -/
theorem run_verbose (settings : Settings) (types : List Text) :
    let quiet := run ⟨types, { settings with verbose := false }⟩
    let loud := run ⟨types, { settings with verbose := true }⟩
    let lines := (events ⟨types, settings⟩).map Event.line
    loud.exitCode = quiet.exitCode ∧ loud.out = quiet.out ∧
      loud.err = lines.flatMap (fun line => line ++ ['\n']) ++ quiet.err ∧
      (quiet.exitCode = 0 → quiet.err = [] ∧
        List.splitOnP Text.isLineEnd loud.err = lines ++ [[]]) ∧
      ∀ line ∈ lines, ∀ c ∈ line, c ∉ ['\n', '\r', '\u0085', '\u2028', '\u2029'] := by
  intro quiet loud lines
  have hloud : loud = Outcome.after [] (unlines lines) quiet := run_reporting settings types
  have hlines : ∀ line ∈ lines, ∀ c ∈ line, Text.isLineEnd c = false :=
    List.forall_mem_map.2 fun _ _ _ => Event.isLineEnd_of_mem_line
  have herr : loud.err = unlines lines ++ quiet.err := congrArg Outcome.err hloud
  have hcode : loud.exitCode = quiet.exitCode := (congrArg Outcome.exitCode hloud).trans rfl
  have hout : loud.out = quiet.out := (congrArg Outcome.out hloud).trans rfl
  refine ⟨hcode, hout, herr, fun h => ?_, fun line hline c hc hend => ?_⟩
  · have hquiet : quiet.err = [] := err_run_quiet h
    refine ⟨hquiet, ?_⟩
    rw [herr, hquiet, List.append_nil]
    exact splitOnP_unlines rfl hlines
  · exact absurd ((hlines line hline c hc).symm.trans (List.contains_iff_mem.2 hend)) nofun

/-- A row and types with line ends; what follows one of them looks like a line of the report. -/
theorem run_verbose_line_ends :
    let option := "Option < , >\nDEBUG typegen.cli: Translated 'u8'".toList
    let settings : Settings := { raw := true, primitives := ["a\r=\u0085b".toList] }
    let types := [option, "\u2028".toList]
    let quiet := run ⟨types, { settings with verbose := false }⟩
    let loud := run ⟨types, { settings with verbose := true }⟩
    quiet.exitCode = 0 ∧ quiet.err = [] ∧ loud.out = quiet.out ∧
      List.splitOnP Text.isLineEnd loud.err
        = [Event.tooFewArguments .option option 0, .passedThrough option, .converted option,
            .converted "\u2028".toList].map Event.line ++ [[]] := by
  intro option settings types quiet loud
  have hcode : quiet.exitCode = 0 := by decide +kernel
  have hevents : events ⟨types, settings⟩ = [.tooFewArguments .option option 0,
      .passedThrough option, .converted option, .converted "\u2028".toList] := by decide +kernel
  obtain ⟨_, hout, _, hsucceeds, _⟩ := run_verbose settings types
  obtain ⟨hquiet, hsplit⟩ := hsucceeds hcode
  exact ⟨hcode, hquiet, hout, hevents ▸ hsplit⟩

end Request

end TypeBridge
