import NetProfile.Text.Printable
import NetProfile.Yaml.Number

/-!
# Values

What documents hold once scalars have types and aliases are followed.

## Main definitions

- `Value`
- `Value.same` — equality, which does not mind the order of entries
- `Value.hasRepeatedKey` — whether a mapping somewhere has one key twice
- `Value.scalarText?` — a scalar as text
- `Value.describe` — what a value is, as messages call it
-/

namespace NetProfile

namespace Yaml

/-- A value. -/
inductive Value where
  | null
  | bool (b : Bool)
  | number (n : Number)
  | string (text : String)
  | sequence (items : List Value)
  /-- Keys with their values, in order. -/
  | mapping (entries : List (Value × Value))
  /-- A value with a tag that only the application knows. -/
  | tagged (tag : String) (value : Value)
  deriving Repr, Inhabited

namespace Value

mutual

/-- Decides whether two values are the same, with their entries in the same order. -/
def decEq : (v w : Value) → Decidable (v = w)
  | .null, .null => isTrue rfl
  | .bool b, .bool c => decidable_of_iff (b = c) (by rw [bool.injEq])
  | .number m, .number n => decidable_of_iff (m = n) (by rw [number.injEq])
  | .string s, .string t => decidable_of_iff (s = t) (by rw [string.injEq])
  | .sequence xs, .sequence ys =>
    have := decEqItems xs ys
    decidable_of_iff (xs = ys) (by rw [sequence.injEq])
  | .mapping xs, .mapping ys =>
    have := decEqEntries xs ys
    decidable_of_iff (xs = ys) (by rw [mapping.injEq])
  | .tagged s v, .tagged t w =>
    have := decEq v w
    decidable_of_iff (s = t ∧ v = w) (by rw [tagged.injEq])
  | .null, .bool _ | .null, .number _ | .null, .string _ | .null, .sequence _ | .null, .mapping _
  | .null, .tagged .. => isFalse nofun
  | .bool _, .null | .bool _, .number _ | .bool _, .string _ | .bool _, .sequence _
  | .bool _, .mapping _ | .bool _, .tagged .. => isFalse nofun
  | .number _, .null | .number _, .bool _ | .number _, .string _ | .number _, .sequence _
  | .number _, .mapping _ | .number _, .tagged .. => isFalse nofun
  | .string _, .null | .string _, .bool _ | .string _, .number _ | .string _, .sequence _
  | .string _, .mapping _ | .string _, .tagged .. => isFalse nofun
  | .sequence _, .null | .sequence _, .bool _ | .sequence _, .number _ | .sequence _, .string _
  | .sequence _, .mapping _ | .sequence _, .tagged .. => isFalse nofun
  | .mapping _, .null | .mapping _, .bool _ | .mapping _, .number _ | .mapping _, .string _
  | .mapping _, .sequence _ | .mapping _, .tagged .. => isFalse nofun
  | .tagged .., .null | .tagged .., .bool _ | .tagged .., .number _ | .tagged .., .string _
  | .tagged .., .sequence _ | .tagged .., .mapping _ => isFalse nofun

/-- Decides whether two lists of values are the same. -/
def decEqItems : (xs ys : List Value) → Decidable (xs = ys)
  | [], [] => isTrue rfl
  | x :: xs, y :: ys =>
    have := decEq x y
    have := decEqItems xs ys
    decidable_of_iff (x = y ∧ xs = ys) (by rw [List.cons.injEq])
  | [], _ :: _ | _ :: _, [] => isFalse nofun

/-- Decides whether two lists of entries are the same. -/
def decEqEntries : (xs ys : List (Value × Value)) → Decidable (xs = ys)
  | [], [] => isTrue rfl
  | (k, v) :: xs, (l, w) :: ys =>
    have := decEq k l
    have := decEq v w
    have := decEqEntries xs ys
    decidable_of_iff ((k = l ∧ v = w) ∧ xs = ys) (by rw [List.cons.injEq, Prod.mk.injEq])
  | [], _ :: _ | _ :: _, [] => isFalse nofun

end

instance : DecidableEq Value := decEq

mutual

/-- Whether two values are equal. Entries of mappings may be in different order. -/
def same : Value → Value → Bool
  | .null, other => match other with
    | .null => true
    | _ => false
  | .bool b, other => match other with
    | .bool c => b == c
    | _ => false
  | .number m, other => match other with
    | .number n => m.same n
    | _ => false
  | .string s, other => match other with
    | .string t => s == t
    | _ => false
  | .sequence xs, other => match other with
    | .sequence ys => sameItems xs ys
    | _ => false
  | .mapping xs, other => match other with
    | .mapping ys => xs.length == ys.length && sameEntries xs ys
    | _ => false
  | .tagged s x, other => match other with
    | .tagged t y => s == t && same x y
    | _ => false

/-- Whether two lists have equal items at equal places. -/
def sameItems : List Value → List Value → Bool
  | [], ys => ys.isEmpty
  | x :: xs, ys =>
    match ys with
    | [] => false
    | y :: ys => same x y && sameItems xs ys

/-- Whether each entry equals one of the entries `ys`. -/
def sameEntries : List (Value × Value) → List (Value × Value) → Bool
  | [], _ => true
  | (k, v) :: rest, ys => ys.any (fun y => same k y.1 && same v y.2) && sameEntries rest ys

end

/-- Whether one value equals an earlier or a later one. -/
def anyRepeated : List Value → Bool
  | [] => false
  | x :: rest => rest.any (same x) || anyRepeated rest

mutual

/-- Whether a mapping has one key twice, at the top or further inside. -/
def hasRepeatedKey : Value → Bool
  | .sequence items => someHasRepeatedKey items
  | .mapping entries => anyRepeated (entries.map Prod.fst) || someEntryHasRepeatedKey entries
  | .tagged _ value => hasRepeatedKey value
  | .null | .bool _ | .number _ | .string _ => false

/-- Whether an item has a mapping with one key twice. -/
def someHasRepeatedKey : List Value → Bool
  | [] => false
  | item :: rest => hasRepeatedKey item || someHasRepeatedKey rest

/-- Whether a key or value of an entry has a mapping with one key twice. -/
def someEntryHasRepeatedKey : List (Value × Value) → Bool
  | [] => false
  | (k, v) :: rest => hasRepeatedKey k || hasRepeatedKey v || someEntryHasRepeatedKey rest

end

/-- The text of a scalar; nothing for what has no text of its own. -/
def scalarText? : Value → Option String
  | .string text => some text
  | .bool b => some (if b then "true" else "false")
  | .number n => some n.text
  | .null | .sequence _ | .mapping _ | .tagged .. => none

/-- What the value is, as messages call it. -/
def describe : Value → String
  | .null => "unit value"
  | .bool b => "boolean `" ++ (if b then "true" else "false") ++ "`"
  | .number (.int n) => "integer `" ++ toString n ++ "`"
  | .number (.float x) => "floating point `" ++ (Number.float x).fullText ++ "`"
  | .string text => "string " ++ Text.literal text
  | .sequence _ => "sequence"
  | .mapping _ => "map"
  | .tagged .. => "enum"

end Value

end Yaml

end NetProfile
