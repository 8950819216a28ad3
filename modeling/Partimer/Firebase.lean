import Partimer.Lib.KeyTree

/-!
# What the app sees of its platform

The parts of Firebase, GeoFire and Java's library that the activities call, as
far as the app relies on them.

* `childPath`, `validPath` — how `DatabaseReference.child(text)` reads a text as a
  path: `/` separates segments, empty ones are dropped, and a text with one of
  `. # $ [ ]` is refused.
* `Platform` — the library functions that stay abstract: reading and printing a
  `double`, the range check of `GeoLocation`, the geohash, and the text of a
  `Map`.  Nothing is assumed of them.
* `Value`, `Database`, `DataSnapshot`, `Write` — the one tree of the realtime
  database; a write replaces the subtree at its path.
* `DataSnapshot.valueToString`, `DataSnapshot.doubleValue`,
  `DataSnapshot.getString` — the three ways in which the activities read a node.
* `Screen`, `Uid`, `Role` — the activities and the accounts.
* `ArrayList.get`, `ArrayList.add`, `getUid` — the calls that throw on a bad index and
  without an account.
* `wholeDegrees`, `acme`, `ann`, `ben` — the library where all coordinates are whole
  degrees, and three accounts, to run the model on.
-/

namespace Partimer

open KeyTree

/-- The exceptions the activities can run into. -/
inductive Exn where
  | nullPointer
  | numberFormat
  | indexOutOfBounds
  | illegalArgument
  | database
  deriving DecidableEq, Repr

/-- The activities of the app that can be reached from the launcher. -/
inductive Screen where
  | showPartimer
  | logInActivity
  | signInOption
  | signInActivity
  | signInCompanyActivity
  | employeeMapActivity
  | viewJobUser
  | welcome
  | bossMapActivity
  | welcomeCompany
  | createJobCompany
  deriving DecidableEq, Repr

/-! ## Texts as database paths -/

/-- The keys that `child(text)` descends through: the non-empty segments. -/
def childPath (text : String) : List String :=
  ((text.toList.splitOn '/').filter (· ≠ [])).map String.ofList

/-- The characters the database refuses in a path. -/
def forbiddenChar (c : Char) : Bool :=
  c == '.' || c == '#' || c == '$' || c == '[' || c == ']'

/-- Whether `child(text)` accepts the text. -/
def validPath (text : String) : Bool := text.toList.all fun c => !forbiddenChar c

example : childPath "a//b/" = ["a", "b"] ∧ childPath "/" = [] ∧ validPath "a.b" = false := by
  decide

/-- The uid of an account: a plain name, so that `child(uid)` is one step. -/
structure Uid where
  text : String
  plain : childPath text = [text]
  deriving DecidableEq

theorem Uid.ext_text {u v : Uid} (h : u.text = v.text) : u = v := by
  cases u; cases v; cases h; rfl

/-- What an account was registered as. -/
inductive Role where
  | user
  | company
  deriving DecidableEq, Repr

/-- `ArrayList.get`. -/
def ArrayList.get {α : Type} (list : List α) (i : Nat) : Except Exn α :=
  match list[i]? with
  | some a => .ok a
  | none => .error .indexOutOfBounds

/-- `ArrayList.add(index, element)`. -/
def ArrayList.add {α : Type} (list : List α) (i : Nat) (a : α) : Except Exn (List α) :=
  if i ≤ list.length then .ok (list.insertIdx i a) else .error .indexOutOfBounds

/-- `mAuth.getCurrentUser().getUid()`. -/
def getUid (currentUser : Option Uid) : Except Exn Uid :=
  match currentUser with
  | some user => .ok user
  | none => .error .nullPointer

/-! ## The library functions that stay abstract -/

/-- A leaf of the database: a string or a number. -/
inductive Value (C : Type) where
  | text (s : String)
  | number (c : C)
  deriving DecidableEq, Repr

/-- The realtime database, as one tree. -/
abbrev Database (C : Type) := Tree String (Value C)

/-- What a listener is handed: the subtree at its reference. -/
abbrev DataSnapshot (C : Type) := Tree String (Value C)

/-- The library functions the app calls, over the type `C` of `double`s. -/
structure Platform (C : Type) where
  /-- `Double.valueOf`; `none` stands for a `NumberFormatException`. -/
  valueOf : String → Option C
  /-- `Double.toString`. -/
  toText : C → String
  /-- The literal `0.0`. -/
  zero : C
  /-- `GeoLocation.coordinatesValid(latitude, longitude)`. -/
  coordinatesValid : C → C → Bool
  /-- The geohash GeoFire stores beside a location. -/
  geoHash : C → C → String
  /-- The text of the `Map` or `List` that `getValue()` makes of an inner node. -/
  mapText : List (String × Node String (Value C)) → String

/-- `com.firebase.geofire.GeoLocation`. -/
structure GeoLocation (C : Type) where
  latitude : C
  longitude : C
  deriving DecidableEq, Repr

/-! ## Writing -/

/-- One write that a client issues: the node to put at a path. -/
structure Write (C : Type) where
  path : List String
  value : Node String (Value C)

/-- A write replaces the subtree at its path. -/
def Write.apply {C : Type} (w : Write C) (db : Database C) : Database C :=
  some (store w.path w.value db)

/-- The node of a `Map` from strings to strings. -/
def mapNode {C : Type} (entries : List (String × String)) : Node String (Value C) :=
  .inner (entries.map fun e => (e.1, .leaf (.text e.2)))

/-- The node that `GeoFire.setLocation` stores. -/
def locationNode {C : Type} (P : Platform C) (location : GeoLocation C) :
    Node String (Value C) :=
  .inner [("g", .leaf (.text (P.geoHash location.latitude location.longitude))),
    ("l", .inner [("0", .leaf (.number location.latitude)),
      ("1", .leaf (.number location.longitude))])]

/-! ## Reading -/

namespace DataSnapshot

variable {C : Type} (P : Platform C)

/-- `getValue().toString()`: an absent node gives `null`. -/
def valueToString (d : DataSnapshot C) : Except Exn String :=
  match d with
  | none => .error .nullPointer
  | some (.leaf (.text s)) => .ok s
  | some (.leaf (.number c)) => .ok (P.toText c)
  | some (.inner cs) => .ok (P.mapText cs)

/-- `Double.valueOf(getValue().toString())`: a stored number is read back
unchanged, and the text of a `Map` or `List`, which starts with a bracket, is no
number. -/
def doubleValue (d : DataSnapshot C) : Except Exn C :=
  match d with
  | none => .error .nullPointer
  | some (.leaf (.number c)) => .ok c
  | some (.leaf (.text s)) =>
    match P.valueOf s with
    | some c => .ok c
    | none => .error .numberFormat
  | some (.inner _) => .error .numberFormat

/-- `getValue(String.class)`: an absent node gives `null`, here `none`; a node
that is no string cannot be converted. -/
def getString (d : DataSnapshot C) : Except Exn (Option String) :=
  match d with
  | none => .ok none
  | some (.leaf (.text s)) => .ok (some s)
  | some (.leaf (.number _)) => .error .database
  | some (.inner _) => .error .database

end DataSnapshot

/-! ## A library and accounts to run the model on -/

/-- The account of a company. -/
def acme : Uid := ⟨"acme", by decide⟩

/-- The account of a person. -/
def ann : Uid := ⟨"ann", by decide⟩

/-- The account of another person. -/
def ben : Uid := ⟨"ben", by decide⟩

/-- Which of the `33554432` cells (25 bits) of a range of `width` degrees holds the
point `x` degrees from its start; a bound belongs to the cell below it. -/
def geoCell (width x : Int) : Nat := ((x * 33554432 - 1) / width).toNat

/-- The ten base 32 digits of GeoFire's hash, at whole degrees. -/
def geoHashDegrees (latitude longitude : Int) : String :=
  let bit (b : Nat) : Nat :=
    if b % 2 = 0 then ((geoCell 360 (longitude + 180)).testBit (24 - b / 2)).toNat
    else ((geoCell 180 (latitude + 90)).testBit (24 - b / 2)).toNat
  let digit (i : Nat) : Nat := (List.range 5).foldl (fun v j => 2 * v + bit (5 * i + j)) 0
  String.ofList ((List.range 10).map fun i =>
    "0123456789bcdefghjkmnpqrstuvwxyz".toList.getD (digit i) '0')

/-- The number a non-empty row of decimal digits stands for. -/
def decimalDigits (cs : List Char) : Option Int :=
  if cs ≠ [] ∧ cs.all Char.isDigit then
    some (cs.foldl (fun n c => 10 * n + (c.toNat - '0'.toNat)) 0)
  else none

/-- The library as it behaves on texts and coordinates of whole degrees. -/
def wholeDegrees : Platform Int where
  valueOf text :=
    match text.toList with
    | '-' :: cs => (decimalDigits cs).map fun n => -n
    | cs => decimalDigits cs
  toText n := toString n ++ ".0"
  zero := 0
  coordinatesValid latitude longitude :=
    decide (-90 ≤ latitude ∧ latitude ≤ 90 ∧ -180 ≤ longitude ∧ longitude ≤ 180)
  geoHash := geoHashDegrees
  mapText _ := "{}"

example : wholeDegrees.valueOf "-12" = some (-12) ∧ wholeDegrees.valueOf "north" = none ∧
    wholeDegrees.coordinatesValid 91 0 = false ∧
    wholeDegrees.geoHash 37 (-122) = "9q94rzdk9g" := by decide

end Partimer
