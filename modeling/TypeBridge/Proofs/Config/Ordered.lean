import TypeBridge.Proofs.CommandLine.Outcome
import TypeBridge.Proofs.Scalar.Ordered

/-!
Configurations with their rows in the order in which they were written. Main statement: rows that
are added in several steps count from the last step to the first, two configurations are the same
value, have the same hash key and convert alike just when their fields agree and the same is looked
up in their rows, and the rows of a request make the configuration that adding them one by one
makes.
-/

namespace TypeBridge

/-! ### Adding rows in steps -/

theorem Rows.insertAll_append (rows : Rows) (added later : List (Text × Text)) :
    rows.insertAll (added ++ later) = (rows.insertAll added).insertAll later :=
  List.foldl_append

namespace Config

theorem withRows_append (config : Config) (added later : List (Text × Text)) :
    config.withRows (added ++ later) = (config.withRows added).withRows later := by
  rw [withRows, Rows.insertAll_append]
  rfl

theorem withRows?_eq_ok (config : Config) {added : List (Text × Text)}
    (h : ∀ row ∈ added, row.1 ≠ "self".toList) :
    config.withRows? added = .ok (config.withRows added) := by
  refine if_neg fun hany => ?_
  obtain ⟨row, hrow, hself⟩ := List.any_eq_true.1 hany
  exact h row hrow (beq_iff_eq.1 hself)

/-- Steps that add rows add the rows of all of them. -/
theorem foldlM_withRows? {α : Type} (rowsOf : α → List (Text × Text)) (config : Config)
    {steps : List α} (h : ∀ step ∈ steps, ∀ row ∈ rowsOf step, row.1 ≠ "self".toList) :
    steps.foldlM (fun config step => config.withRows? (rowsOf step)) config
      = .ok (config.withRows (steps.flatMap rowsOf)) := by
  induction steps generalizing config with
  | nil => rfl
  | cons step steps ih =>
    obtain ⟨hstep, hsteps⟩ := List.forall_mem_cons.1 h
    rw [List.foldlM_cons, withRows?_eq_ok config hstep, List.flatMap_cons, withRows_append]
    exact ih (config.withRows (rowsOf step)) hsteps

end Config

/-! ### Configurations with ordered rows -/

/-- A configuration whose rows are kept in the order in which they were written. -/
structure OrderedConfig where
  rows : OrderedRows
  structural : Bool
  errorType : Text
  anyType : Text

namespace OrderedConfig

/-- The configuration as a value. -/
def value (c : OrderedConfig) : Config := ⟨c.rows.value, c.structural, c.errorType, c.anyType⟩

/-- What a hash is computed from: the sorted rows and the other fields. -/
def hashKey (c : OrderedConfig) : List (Text × Text) × Bool × Text × Text :=
  (c.rows.sorted, c.structural, c.errorType, c.anyType)

/-- The configuration with more rows written over its own. -/
def withRows (c : OrderedConfig) (added : OrderedRows) : OrderedConfig :=
  { c with rows := c.rows.update added.items }

/-- Whether the fields of two configurations agree, the rows as maps. -/
structure Agrees (c c' : OrderedConfig) : Prop where
  structural_eq : c.structural = c'.structural
  errorType_eq : c.errorType = c'.errorType
  anyType_eq : c.anyType = c'.anyType
  get?_eq : ∀ token, c.rows.get? token = c'.rows.get? token

variable {c c' : OrderedConfig}

theorem exists_value_eq (config : Config) : ∃ c : OrderedConfig, c.value = config := by
  obtain ⟨rows, hrows⟩ := OrderedRows.exists_value_eq config.rows
  exact ⟨⟨rows, config.structural, config.errorType, config.anyType⟩, by rw [value, hrows]⟩

theorem value_eq_iff : c.value = c'.value ↔ c.Agrees c' := by
  rw [value, value, Config.mk.injEq, OrderedRows.value_eq_iff]
  constructor
  · rintro ⟨hrows, hstructural, herror, hany⟩
    exact ⟨hstructural, herror, hany, hrows⟩
  · rintro ⟨hstructural, herror, hany, hrows⟩
    exact ⟨hrows, hstructural, herror, hany⟩

theorem hashKey_eq_iff : c.hashKey = c'.hashKey ↔ c.value = c'.value := by
  have hrows : c.rows.sorted = c'.rows.sorted ↔ c.rows.value = c'.rows.value := by
    rw [OrderedRows.sorted_eq_entries, OrderedRows.sorted_eq_entries, Rows.mk.injEq]
  rw [hashKey, hashKey, value, value, Config.mk.injEq, Prod.mk.injEq, Prod.mk.injEq, Prod.mk.injEq,
    hrows]

/-- Only the rows change, by everything that the steps write. -/
theorem foldl_withRows (c : OrderedConfig) (steps : List OrderedRows) :
    steps.foldl withRows c
      = { c with rows := c.rows.update (steps.flatMap OrderedRows.items) } := by
  induction steps generalizing c with
  | nil => rfl
  | cons step steps ih =>
    rw [List.foldl_cons, ih, withRows, List.flatMap_cons, OrderedRows.update_append]

theorem value_foldl_withRows (c : OrderedConfig) (steps : List OrderedRows) :
    (steps.foldl withRows c).value = c.value.withRows (steps.flatMap OrderedRows.items) := by
  rw [foldl_withRows, value, OrderedRows.value_update]
  rfl

/-- The last step that has a row for a token counts. -/
theorem get?_foldl_withRows (c : OrderedConfig) (steps : List OrderedRows) (token : Text) :
    (steps.foldl withRows c).rows.get? token
      = (steps.reverse.findSome? fun step => step.get? token).or (c.rows.get? token) := by
  induction steps generalizing c with
  | nil => rfl
  | cons step steps ih =>
    have hstep : (c.withRows step).rows.get? token
        = (step.get? token).or (c.rows.get? token) := OrderedRows.get?_update _ _ _
    rw [List.foldl_cons, ih, hstep, List.reverse_cons, List.findSome?_append,
      List.findSome?_singleton, Option.or_assoc]

end OrderedConfig

/-! ### The rows of a request -/

namespace Scalar

/-- Whether a text writes a row: a token and a name around the first `=`, both stripped. -/
def WritesRow (s : Text) (row : Text × Text) : Prop :=
  ∃ token name, s = token ++ '=' :: name ∧ '=' ∉ token ∧ row = (Text.strip token, Text.strip name)

theorem writesRow_of_readRow? {s : Text} {row : Text × Text} (h : readRow? s = some row) :
    WritesRow s row := by
  rw [readRow?] at h
  split at h
  · cases h
  rename_i token name hcut
  split at h
  · cases h
  cases h
  obtain ⟨hs, htoken⟩ := Text.cutAt?_eq_some '=' hcut
  exact ⟨token, name, hs, htoken, rfl⟩

theorem forall₂_writesRow_of_readRows : ∀ {texts : List Text} {rows : List (Text × Text)},
    readRows texts = .ok rows → List.Forall₂ WritesRow texts rows
  | [], _, h => by
    cases h
    exact .nil
  | s :: texts, _, h => by
    rw [readRows] at h
    split at h
    · cases h
    rename_i row hrow
    cases hrows : readRows texts with
    | error e =>
      rw [hrows] at h
      cases h
    | ok rows =>
      rw [hrows] at h
      cases h
      exact .cons (writesRow_of_readRow? hrow) (forall₂_writesRow_of_readRows hrows)

end Scalar

/-- Every configuration is the value of one with ordered rows, in which the same is looked up. Steps
that add rows count from the last to the first; equality, equality of the hash keys and conversion
do not depend on the order of rows; and a request is run under the configuration that adding its
rows one by one makes. -/
theorem config_algebra :
    (∀ config : Config, ∃ c : OrderedConfig, c.value = config) ∧
    (∀ (c : OrderedConfig) (token : Text), c.value.rows.get? token = c.rows.get? token) ∧
    (∀ (c : OrderedConfig) (steps : List OrderedRows),
      (∀ step ∈ steps, ∀ row ∈ step.items, row.1 ≠ "self".toList) →
        let merged := steps.foldl OrderedConfig.withRows c
        steps.foldlM (fun config step => config.withRows? step.items) c.value = .ok merged.value ∧
          merged.structural = c.structural ∧ merged.errorType = c.errorType ∧
          merged.anyType = c.anyType ∧ ∀ token, merged.rows.get? token
            = (steps.reverse.findSome? fun step => step.get? token).or (c.rows.get? token)) ∧
    (∀ c c' : OrderedConfig, (c.value = c'.value ↔ c.Agrees c') ∧
      (c.hashKey = c'.hashKey ↔ c.value = c'.value) ∧
      (c.Agrees c' → ∀ isReturn source,
        convert c.value isReturn source = convert c'.value isReturn source)) ∧
    ∀ settings : Settings, (∀ pair ∈ settings.primitives, ¬ Scalar.FaultyRow pair) →
      ∃ rows, Scalar.readRows settings.primitives = .ok rows ∧
        List.Forall₂ Scalar.WritesRow settings.primitives rows ∧
        (∀ types, Request.run ⟨types, settings⟩
          = settings.runTypes (settings.config rows) types) ∧
        ((∀ row ∈ rows, row.1 ≠ "self".toList) →
          rows.foldlM (fun config row => Config.withRows? config [row])
            { structural := settings.structural } = .ok (settings.config rows)) := by
  refine ⟨OrderedConfig.exists_value_eq, fun c => c.rows.get?_value, fun c steps hself => ?_,
    fun c c' => ?_, fun settings hvalid => ?_⟩
  · intro merged
    have hvalue := c.value.foldlM_withRows? OrderedRows.items hself
    rw [← OrderedConfig.value_foldl_withRows] at hvalue
    have hfields : merged = { c with rows := _ } := c.foldl_withRows steps
    exact ⟨hvalue, by rw [hfields], by rw [hfields], by rw [hfields], c.get?_foldl_withRows steps⟩
  · have hvalue : c.value = c'.value ↔ c.Agrees c' := OrderedConfig.value_eq_iff
    exact ⟨hvalue, OrderedConfig.hashKey_eq_iff, fun h isReturn source => by rw [hvalue.2 h]⟩
  · obtain ⟨rows, hread⟩ := Scalar.exists_readRows hvalid
    refine ⟨rows, hread, Scalar.forall₂_writesRow_of_readRows hread, Request.run_of_rows hread,
      fun hself => ?_⟩
    have hsteps := Config.foldlM_withRows? (fun row : Text × Text => [row])
      { structural := settings.structural } fun row hrow =>
        List.forall_mem_singleton.2 (hself row hrow)
    rw [List.flatMap_singleton'] at hsteps
    exact hsteps

/-- Two orders of the same rows, a step that writes over one row and adds another, and a request
with two rows for one token. -/
theorem config_algebra_of_two_orders :
    let f64 : Text × Text := ("f64".toList, "number".toList)
    let f32 : Text × Text := ("f32".toList, "Float".toList)
    let uuid : Text × Text := ("Uuid".toList, "string".toList)
    let c : OrderedConfig := ⟨⟨[f64, f32], by decide⟩, false, "Error".toList, "any".toList⟩
    let c' : OrderedConfig := { c with rows := ⟨[f32, f64], by decide⟩ }
    let step : OrderedRows := ⟨[uuid, ("f64".toList, "Double".toList)], by decide⟩
    let settings : Settings := { primitives := [" f64= number".toList, "f64=a=b".toList] }
    let rows := [f64, ("f64".toList, "a=b".toList)]
    c.value.withRows? step.items = .ok (c.withRows step).value ∧
      (c.withRows step).rows.get? "f64".toList = some "Double".toList ∧
      c.hashKey = c'.hashKey ∧ c.value = c'.value ∧
      (∀ isReturn source, convert c.value isReturn source = convert c'.value isReturn source) ∧
      (∀ types, Request.run ⟨types, settings⟩ = settings.runTypes (settings.config rows) types) ∧
      rows.foldlM (fun config row => Config.withRows? config [row]) {}
        = .ok (settings.config rows) := by
  intro f64 f32 uuid c c' step settings rows
  have hstep : ∀ s ∈ [step], ∀ row ∈ s.items, row.1 ≠ "self".toList := by decide
  have hagrees : c.Agrees c' :=
    ⟨rfl, rfl, rfl, Rows.lookup_of_perm (List.Perm.swap _ _ _) c'.rows.nodup⟩
  have hvalid : ∀ pair ∈ settings.primitives, ¬ Scalar.FaultyRow pair := by decide
  have hself : ∀ row ∈ rows, row.1 ≠ "self".toList := by decide
  obtain ⟨_, _, hsteps, hequal, hrequest⟩ := config_algebra
  obtain ⟨hmerged, _, _, _, hget⟩ := hsteps c [step] hstep
  obtain ⟨hvalue, hkey, hconvert⟩ := hequal c c'
  obtain ⟨read, hread, _, hrun, hadd⟩ := hrequest settings hvalid
  have hrows : read = rows := by
    have hread' : Scalar.readRows settings.primitives = .ok rows := by decide
    exact Except.ok.inj (hread.symm.trans hread')
  subst hrows
  exact ⟨hmerged, hget _, hkey.2 (hvalue.2 hagrees), hvalue.2 hagrees, hconvert hagrees, hrun,
    hadd hself⟩

end TypeBridge
