import Formula.Number.Promotion

/-!
# Values

What an expression evaluates to.  Arrays come from host functions only.
-/

namespace Formula

inductive Value where
  | null
  | bool (value : Bool)
  | number (value : Number)
  | string (value : String)
  | array (items : List Value)

namespace Value

instance : Inhabited Value := ⟨.null⟩

def kind : Value → Kind
  | .null => .null
  | .bool _ => .bool
  | .number _ => .number
  | .string _ => .string
  | .array _ => .array

def isNull : Value → Bool
  | .null => true
  | _ => false

def toNumber? : Value → Option Number
  | .number value => some value
  | _ => none

def toDouble? (value : Value) : Option Double :=
  value.toNumber?.map Number.toDouble

def toBool? : Value → Option Bool
  | .bool value => some value
  | _ => none

def toString? : Value → Option String
  | .string value => some value
  | _ => none

/-! ## Text

Null has no text, and a string is its own. -/

mutual

def text : Value → String
  | .null => ""
  | .bool value => if value then "true" else "false"
  | .number value => value.text
  | .string value => value
  | .array items => "[" ++ ", ".intercalate (texts items) ++ "]"

def texts : List Value → List String
  | [] => []
  | item :: items => item.text :: texts items

end

/-! ## Equality

Values are the same when they have the same structure and the same numbers; a value with a NaN in it
is not the same as itself. -/

mutual

def same : Value → Value → Bool
  | .null, .null => true
  | .bool left, .bool right => left == right
  | .number left, .number right => left.same right
  | .string left, .string right => left == right
  | .array left, .array right => sameItems left right
  | _, _ => false

def sameItems : List Value → List Value → Bool
  | [], [] => true
  | left :: lefts, right :: rights => left.same right && sameItems lefts rights
  | _, _ => false

end

end Value

end Formula
