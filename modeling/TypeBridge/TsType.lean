import TypeBridge.Text.Basic

/-!
TypeScript types as far as a conversion builds them, and their text. No parentheses are written, so
the text of a union inside an array stands between the brackets as it is.
-/

namespace TypeBridge

/-- A TypeScript type. -/
inductive TsType where
  /-- A type given by its text. -/
  | name (text : Text)
  | array (element : TsType)
  | union (left right : TsType)
  | record (key value : TsType)
  | tuple (elements : List TsType)

namespace TsType

/-- The type of the absent value. -/
def null : TsType := name "null".toList

mutual

/-- The text of a type. -/
def render : TsType → Text
  | name text => text
  | array element => "Array<".toList ++ render element ++ ['>']
  | union left right => render left ++ " | ".toList ++ render right
  | record key value => "Record<".toList ++ render key ++ ", ".toList ++ render value ++ ['>']
  | tuple elements => '[' :: ", ".toList.intercalate (renderAll elements) ++ [']']

/-- The texts of several types. -/
def renderAll : List TsType → List Text
  | [] => []
  | t :: ts => render t :: renderAll ts

end

@[simp] theorem render_name (text : Text) : render (name text) = text := rfl

@[simp] theorem render_array (element : TsType) :
    render (array element) = "Array<".toList ++ render element ++ ['>'] := rfl

@[simp] theorem render_union (left right : TsType) :
    render (union left right) = render left ++ " | ".toList ++ render right := rfl

@[simp] theorem render_record (key value : TsType) : render (record key value)
    = "Record<".toList ++ render key ++ ", ".toList ++ render value ++ ['>'] := rfl

@[simp] theorem render_tuple (elements : List TsType) : render (tuple elements)
    = '[' :: ", ".toList.intercalate (renderAll elements) ++ [']'] := rfl

theorem renderAll_eq_map : ∀ ts : List TsType, renderAll ts = ts.map render
  | [] => rfl
  | t :: ts => by rw [renderAll, renderAll_eq_map ts, List.map_cons]

end TsType

end TypeBridge
