import TypeBridge.Proofs.Convert.Dispatch

/-!
What a conversion from parsed arguments does not see: references, what stands before the last
segment of a wrapper's path, and the arguments that a wrapper does not render. Main statement: an
expression in which all of these are erased is converted like the expression itself, with the same
reports.
-/

namespace TypeBridge

namespace TypeExpr

mutual

/-- An expression without its references and without what its wrappers do not render. Only what is
converted from its parts is changed. -/
def erase : TypeExpr → TypeExpr
  | .reference referent _ _ => erase referent
  | .tuple elements => .tuple (eraseAll elements)
  | .path fullName args none =>
    match Wrapper.ofName? (lastSegment fullName) with
    | none => .path fullName args none
    | some wrapper =>
      if wrapper.arity ≤ args.length then
        .path wrapper.name ((eraseAll args).take wrapper.arity) none
      else .path fullName args none
  | .path fullName args (some selfType) => .path fullName args (some selfType)
  | .verbatim form text => .verbatim form text

/-- Several expressions, each without what `erase` takes away. -/
def eraseAll : List TypeExpr → List TypeExpr
  | [] => []
  | e :: es => erase e :: eraseAll es

end

theorem eraseAll_eq_map : ∀ es : List TypeExpr, eraseAll es = es.map erase
  | [] => rfl
  | e :: es => by rw [eraseAll, eraseAll_eq_map es, List.map_cons]

end TypeExpr

/-! ### Wrappers -/

theorem Wrapper.lastSegment_name (wrapper : Wrapper) :
    TypeExpr.lastSegment wrapper.name = wrapper.name := by
  cases wrapper <;> rfl

theorem Wrapper.wrap?_take {α : Type} (wrapper : Wrapper) (args : List α) :
    wrapper.wrap? (args.take wrapper.arity) = wrapper.wrap? args := by
  rcases args with _ | ⟨a, _ | ⟨b, rest⟩⟩ <;> cases wrapper <;> rfl

section

variable {config : Config} {wrapper : Wrapper} {fullName : Text}

theorem Config.parts?_of_structural (hs : config.structural = true)
    (hname : Wrapper.ofName? (TypeExpr.lastSegment fullName) = some wrapper)
    (args : List TypeExpr) : config.parts? fullName args = wrapper.wrap? args := by
  rw [Config.parts?, Config.wrapper?, if_pos hs, hname, Option.bind_some]

/-- The path of a wrapper alone, with the arguments that it renders, is taken apart like the path
that it comes from. -/
theorem Config.parts?_erase (hs : config.structural = true) (wrapper : Wrapper)
    (args : List TypeExpr) :
    config.parts? wrapper.name ((TypeExpr.eraseAll args).take wrapper.arity)
      = (wrapper.wrap? args).map (Wrapped.map TypeExpr.erase) := by
  have hname : Wrapper.ofName? (TypeExpr.lastSegment wrapper.name) = some wrapper := by
    rw [wrapper.lastSegment_name, Wrapper.ofName?_name]
  rw [Config.parts?_of_structural hs hname, Wrapper.wrap?_take, TypeExpr.eraseAll_eq_map,
    Wrapper.wrap?_map]

/-! ### Expressions -/

theorem convertExpr_erase (hs : config.structural = true) (isReturn : Bool) (e : TypeExpr) :
    convertExpr config isReturn e.erase = convertExpr config isReturn e := by
  induction e using TypeExpr.induct generalizing isReturn with
  | reference referent isMutable lifetime ih =>
    rw [TypeExpr.erase, convertExpr]
    exact ih isReturn
  | tuple elements ih =>
    have hall : (elements.map TypeExpr.erase).map (convertExpr config false)
        = elements.map (convertExpr config false) := by
      rw [List.map_map]
      exact List.map_congr_left fun e he => ih e he false
    rw [TypeExpr.erase, TypeExpr.eraseAll_eq_map, convertExpr_tuple, convertExpr_tuple, hall,
      List.isEmpty_map]
  | path fullName args selfType ih =>
    cases selfType with
    | some selfType => rfl
    | none =>
      rw [TypeExpr.erase]
      cases hname : Wrapper.ofName? (TypeExpr.lastSegment fullName) with
      | none => rfl
      | some wrapper =>
        by_cases hlength : wrapper.arity ≤ args.length
        · obtain ⟨w, hw⟩ : ∃ w, wrapper.wrap? args = some w := by
            rw [← Option.ne_none_iff_exists', ne_eq, Wrapper.wrap?_eq_none_iff]
            omega
          have hargs : ∀ e ∈ w.args,
              convertExpr config false e.erase = convertExpr config false e := by
            intro e he
            rw [(Wrapper.wrap?_eq_some_iff.1 hw).2.2] at he
            exact ih e (List.mem_of_mem_take he) false
          simp only [if_pos hlength, convertExpr_path, Config.parts?_erase hs,
            Config.parts?_of_structural hs hname, hw, Option.map_some, Wrapped.map_map]
          rw [Wrapped.map_congr hargs]
        · simp only [if_neg hlength]
  | verbatim form text => rfl

end

/-- Where wrappers are taken from parsed arguments, references, the qualification of wrappers and
the arguments that they do not render have no effect. -/
theorem convert_erase (config : Config) (hs : config.structural = true) (isReturn : Bool)
    (e : TypeExpr) :
    convert config isReturn (.expr e) = convert config isReturn (.expr e.erase) :=
  (convertExpr_erase hs isReturn e).symm

/-- A borrowed map by a qualified name, with an allocator and a hasher. A wrapper with too few
arguments stays as it is, and so does what is kept as text. -/
theorem convert_erase_hashMap :
    let config : Config := { structural := true }
    let name := fun s : String => TypeExpr.path s.toList [] none
    let array := TypeExpr.verbatim .array "[&u8; 4]".toList
    let few := TypeExpr.path "std::HashMap".toList [.reference (name "K") false none] none
    let vec := TypeExpr.path "alloc::vec::Vec".toList
      [.tuple [few, .reference array true none], name "Global"] none
    let e := TypeExpr.reference (.path "std::collections::HashMap".toList
      [.reference (name "str") false (some "a".toList), vec, name "RandomState"] none) false none
    let erased := TypeExpr.path "HashMap".toList
      [name "str", .path "Vec".toList [.tuple [few, array]] none] none
    config.structural = true ∧ e.erase = erased ∧
      convert config true (.expr e) = convert config true (.expr erased) := by
  intro config name array few vec e erased
  have hs : config.structural = true := rfl
  have herased : e.erase = erased := rfl
  exact ⟨hs, herased, herased ▸ convert_erase config hs true e⟩

end TypeBridge
