import RingDeque.Deque.Build
import RingDeque.Text.Shown

/-!
# Configuration

How much room a new deque has. The room can be given, or read from the environment, where a value
that is missing or not a number stands for the default.
-/

namespace RingDeque

namespace Number

/-- The blanks that may surround a number. -/
def isBlank (c : Char) : Bool :=
  [0x9, 0xA, 0xB, 0xC, 0xD, 0x20, 0x85, 0xA0, 0x1680, 0x2000, 0x2001, 0x2002, 0x2003, 0x2004,
    0x2005, 0x2006, 0x2007, 0x2008, 0x2009, 0x200A, 0x2028, 0x2029, 0x202F, 0x205F,
    0x3000].contains c.toNat

/-- The text without the blanks around it. -/
def trim (text : List Char) : List Char :=
  ((text.dropWhile isBlank).reverse.dropWhile isBlank).reverse

/-- The digit that a character is. -/
def digit? (c : Char) : Option Nat :=
  if '0' ≤ c ∧ c ≤ '9' then some (c.toNat - '0'.toNat) else none

/-- The number that digits spell after those that spelled `value`. -/
def ofDigits? (value : Nat) : List Char → Option Nat
  | [] => some value
  | c :: rest =>
    match digit? c with
    | some digit => ofDigits? (value * 10 + digit) rest
    | none => none

/-- The machine word that a text spells: at least one decimal digit, and perhaps a plus sign in
front. -/
def ofText? (text : List Char) : Option Nat :=
  let digits :=
    match text with
    | '+' :: rest => rest
    | _ => text
  match digits with
  | [] => none
  | _ =>
    match ofDigits? 0 digits with
    | some value => if value ≤ wordMax then some value else none
    | none => none

end Number

/-- Names of variables with their values, which are bytes and need not spell a text. -/
abbrev Environment := List (String × ByteArray)

/-- The text of a variable, if there is such a variable and its value spells one. -/
def Environment.text? (environment : Environment) (name : String) : Option String :=
  (environment.lookup name).bind String.fromUTF8?

/-- What a new deque is to be like. -/
structure Config where
  /-- How many elements the deque holds before it first grows. -/
  capacityHint : Nat := Deque.defaultCapacity
  deriving DecidableEq, Repr

namespace Config

variable {α : Type u}

/-- The configuration with another capacity hint. -/
def capacity (hint : Nat) (config : Config) : Config :=
  { config with capacityHint := hint }

/-- The capacity hint that the value of a variable gives. -/
def hintOfText? (text : String) : Option Nat :=
  Number.ofText? (Number.trim text.toList)

/-- The configuration that the variable with `stem` at the beginning of its name gives. -/
def ofEnvironment (environment : Environment) (stem : String) : Config where
  capacityHint :=
    ((environment.text? (stem ++ "_CAPACITY")).bind hintOfText?).getD Deque.defaultCapacity

/-- An empty deque. -/
def build (a : Allocator) (config : Config) : Deque α :=
  .withCapacity a config.capacityHint

/-- A deque of the elements of `xs`, with room for as many as the hint says if that is more; no room
is a fault. -/
def buildFrom (a : Allocator) (xs : List α) (config : Config) : Except Fault (Deque α) :=
  match (config.build a).extend a xs.length (.ofList xs) with
  | (.ok (), _, d) => .ok d
  | (.error fault, _, _) => .error fault

instance : Inspect Config where
  inspect config := .record "DequeConfig" [.field "capacity_hint" (.nat config.capacityHint)] false

end Config

end RingDeque
