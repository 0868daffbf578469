import TypeBridge.Convert

/-!
What the conversion of an expression comes down to, shape by shape. Main statements: the unit type
has a type of its own, a tuple is converted element by element, and a path is converted from its
parsed arguments if the configuration takes it apart, and from its printed form otherwise.
-/

namespace TypeBridge

/-! ### Wrappers and computations -/

theorem Logged.bind_congr {α β : Type} {x : Logged α} {f g : α → Logged β}
    (h : f x.value = g x.value) : x >>= f = x >>= g := by
  show Logged.bind x f = Logged.bind x g
  rw [Logged.bind, Logged.bind, h]

theorem Wrapped.map_congr {α β : Type} {f g : α → β} {w : Wrapped α}
    (h : ∀ a ∈ w.args, f a = g a) : w.map f = w.map g := by
  cases w with
  | vec a => rw [map, map, h a (by simp [args])]
  | option a => rw [map, map, h a (by simp [args])]
  | result a => rw [map, map, h a (by simp [args])]
  | hashMap a b => rw [map, map, h a (by simp [args]), h b (by simp [args])]

theorem Wrapped.map_map {α β γ : Type} (f : α → β) (g : β → γ) (w : Wrapped α) :
    (w.map f).map g = w.map fun a => g (f a) := by
  cases w <;> rfl

theorem Wrapper.wrap?_map {α β : Type} (f : α → β) (wrapper : Wrapper) (args : List α) :
    wrapper.wrap? (args.map f) = (wrapper.wrap? args).map (Wrapped.map f) := by
  rcases args with _ | ⟨a, _ | ⟨b, rest⟩⟩ <;> cases wrapper <;> rfl

/-! ### Shapes -/

/-- The wrapper that a configuration takes a path for, around the parsed arguments that it
renders. -/
def Config.parts? (config : Config) (fullName : Text) (args : List TypeExpr) :
    Option (Wrapped TypeExpr) :=
  (config.wrapper? fullName).bind fun wrapper => wrapper.wrap? args

section

variable (config : Config) (isReturn : Bool)

theorem convertText_unit : convertText config isReturn TypeExpr.unit.print
    = pure (.name "undefined".toList) := by
  have hbuiltin : Scalar.builtin? TypeExpr.unit.print = some "undefined".toList := by decide
  rw [convertText_eq, Scalar.lookup?_of_builtin? hbuiltin]

theorem convertExpr_tuple (elements : List TypeExpr) :
    convertExpr config isReturn (.tuple elements) =
      if elements.isEmpty then pure (.name "undefined".toList)
      else .tuple <$> Logged.all (elements.map (convertExpr config false)) := by
  rw [convertExpr, convertEach_eq_map, convertText_unit]

theorem convertExpr_path (fullName : Text) (args : List TypeExpr) :
    convertExpr config isReturn (.path fullName args none) =
      match config.parts? fullName args with
      | some w => renderWrapped config isReturn (w.map (convertExpr config false))
      | none => convertText config isReturn (TypeExpr.path fullName args none).print := by
  simp only [convertExpr, convertEach_eq_map, Wrapper.wrap?_map, Config.parts?]
  cases config.wrapper? fullName with
  | none => rfl
  | some wrapper =>
    dsimp only [Option.bind_some]
    cases wrapper.wrap? args <;> rfl

end

section

variable {config : Config} {isReturn : Bool} {fullName : Text} {args : List TypeExpr}

theorem convertExpr_path_of_wrap? {wrapper : Wrapper} {w : Wrapped TypeExpr}
    (h : config.wrapper? fullName = some wrapper) (hw : wrapper.wrap? args = some w) :
    convertExpr config isReturn (.path fullName args none)
      = renderWrapped config isReturn (w.map (convertExpr config false)) := by
  rw [convertExpr_path, Config.parts?, h, Option.bind_some, hw]

/-- A path that is not taken apart is converted from its printed form. -/
theorem convertExpr_path_of_textual
    (h : ∀ wrapper ∈ config.wrapper? fullName, args.length < wrapper.arity) :
    convertExpr config isReturn (.path fullName args none)
      = convertText config isReturn (TypeExpr.path fullName args none).print := by
  have hparts : config.parts? fullName args = none :=
    Option.bind_eq_none_iff.2 fun wrapper hw => Wrapper.wrap?_eq_none_iff.2 (h wrapper hw)
  rw [convertExpr_path, hparts]

end

end TypeBridge
