import DashboardFilters.Floating
import DashboardFilters.SortedMap

/-!
JSON values. Integers and doubles are different values even where they are numerically equal, and
an object holds its fields in key order.
-/

namespace DashboardFilters

inductive Json where
  | null
  | bool (b : Bool)
  | integer (i : Int)
  | double (d : Binary64)
  | string (s : String)
  | array (items : List Json)
  | object (fields : List (String × Json))
deriving Inhabited

namespace Json

/-- Of several fields of one key the last one stays. -/
def ofFields (fields : List (String × Json)) : Json :=
  object (SortedMap.ofList fields).entries

mutual

/-- Structural equality. Doubles compare numerically, so that the two zeros are equal. -/
def same : Json → Json → Bool
  | null, null => true
  | bool a, bool b => a == b
  | integer i, integer j => i == j
  | double d, double e => d == e
  | string s, string t => s == t
  | array xs, array ys => sameItems xs ys
  | object xs, object ys => sameFields xs ys
  | _, _ => false

def sameItems : List Json → List Json → Bool
  | [], [] => true
  | x :: xs, y :: ys => x.same y && sameItems xs ys
  | _, _ => false

def sameFields : List (String × Json) → List (String × Json) → Bool
  | [], [] => true
  | (k, x) :: xs, (l, y) :: ys => k == l && x.same y && sameFields xs ys
  | _, _ => false

end

instance : BEq Json := ⟨same⟩

end Json

end DashboardFilters
