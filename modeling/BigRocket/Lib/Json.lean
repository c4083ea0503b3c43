/-
JSON values as `org.json` keeps them, and what holds of them at every depth. Of
the entries of an object the first with a key counts. Parsing and printing are
parameters.
-/
import BigRocket.Lib.Text

namespace BigRocket.Lib

structure JsonNumber where
  text : Text
  toInt : Int
  deriving DecidableEq

def JsonNumber.ofInt (n : Int) : JsonNumber := { text := (toString n).toList, toInt := n }

inductive Json where
  | null
  | bool (b : Bool)
  | num (n : JsonNumber)
  | str (s : Text)
  | arr (items : List Json)
  | obj (fields : List (String × Json))

abbrev JsonObject : Type := List (String × Json)

/-- The library: `JSONTokener.nextValue`, and the text of a value that is no
string. -/
structure OrgJson where
  nextValue : Text → Option Json
  text : Json → Text

namespace JsonObject

def opt (o : JsonObject) (key : String) : Option Json := o.lookup key

def has (o : JsonObject) (key : String) : Bool := (o.opt key).isSome

def isNull (o : JsonObject) (key : String) : Bool :=
  match o.opt key with
  | none => true
  | some .null => true
  | some _ => false

def remove (o : JsonObject) (key : String) : JsonObject := o.filter fun e => e.1 ≠ key

def put (o : JsonObject) (key : String) (value : Json) : JsonObject :=
  if o.has key then o.map fun e => if e.1 = key then (key, value) else e
  else o ++ [(key, value)]

def optJSONObject (o : JsonObject) (key : String) : Option JsonObject :=
  match o.opt key with
  | some (.obj fields) => some fields
  | _ => none

def optJSONArray (o : JsonObject) (key : String) : Option (List Json) :=
  match o.opt key with
  | some (.arr items) => some items
  | _ => none

def optString (org : OrgJson) (o : JsonObject) (key : String) : Text :=
  match o.opt key with
  | none => []
  | some (.str s) => s
  | some v => org.text v

end JsonObject

namespace OrgJson

def object (org : OrgJson) (s : Text) : Option JsonObject :=
  match org.nextValue s with
  | some (.obj fields) => some fields
  | _ => none

def ofTable (table : List (Text × Json)) : OrgJson where
  nextValue s := table.lookup s
  text _ := []

end OrgJson

/-! ## Places in a value -/

inductive Json.Step where
  | key (k : String)
  | index (i : Nat)
  deriving DecidableEq

namespace Json

def step : Json → Step → Option Json
  | .obj fields, .key k => JsonObject.opt fields k
  | .arr items, .index i => items[i]?
  | _, _ => none

def at? : Json → List Step → Option Json
  | j, [] => some j
  | j, s :: path => (j.step s).bind fun v => v.at? path

/-- Every entry of every object in the value, at any depth, satisfies `P`. -/
def Everywhere (P : String → Json → Prop) (j : Json) : Prop :=
  ∀ path k v, j.at? (path ++ [.key k]) = some v → P k v

end Json

end BigRocket.Lib
