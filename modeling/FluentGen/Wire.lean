import FluentGen.Text.Utf8

/-!
The binary form of schema messages: a sequence of records, each a field number and a payload. A
group is a sequence of records of its own; no message of this library has one, so it is checked and
its contents are dropped.

A record takes one byte at least, so the number of bytes bounds the number of records.
-/

namespace FluentGen.Wire

/-- What a record carries. -/
inductive Payload where
  | varint (n : Nat)
  | fixed64
  | bytes (content : List UInt8)
  | group
  | fixed32
  deriving DecidableEq, Repr

/-- A record: the number of a field and what it carries. -/
structure Record where
  number : Nat
  payload : Payload
  deriving DecidableEq, Repr

/-- How deep messages and groups may be nested. -/
def depthLimit : Nat := 100

/-- Reads a number in groups of seven bits, the lowest first, of at most `places` bytes. -/
def varint? : (places : Nat) → List UInt8 → Option (Nat × List UInt8)
  | 0, _ => none
  | _ + 1, [] => none
  | places + 1, b :: rest =>
    if b.toNat < 128 then some (b.toNat, rest)
    else do
      let (n, rest) ← varint? places rest
      return (b.toNat - 128 + 128 * n, rest)

/-- Reads a number of 64 bits; what is beyond them is lost. -/
def number? (bytes : List UInt8) : Option (Nat × List UInt8) := do
  let (n, rest) ← varint? 10 bytes
  return (n % Nat.pow 2 64, rest)

/-- Reads the head of a record: a field number, which is not zero, and the form of the payload. -/
def head? (bytes : List UInt8) : Option (Nat × Nat × List UInt8) := do
  let (tag, rest) ← varint? 5 bytes
  if Nat.pow 2 32 ≤ tag || tag / 8 = 0 then none
  return (tag / 8, tag % 8, rest)

/-- Takes a number of bytes, which must be there. -/
def take? (n : Nat) (bytes : List UInt8) : Option (List UInt8 × List UInt8) :=
  if n ≤ bytes.length then some (bytes.take n, bytes.drop n) else none

/-- Reads bytes behind their length. -/
def delimited? (bytes : List UInt8) : Option (List UInt8 × List UInt8) := do
  let (n, rest) ← varint? 5 bytes
  if Nat.pow 2 31 ≤ n then none
  take? n rest

/-- Reads records up to the end of the group with the given number, or up to the last byte without
one. The fuel is the number of bytes and one more. -/
def readRecords : (fuel depth : Nat) → (group : Option Nat) → List UInt8 →
    Option (List Record × List UInt8)
  | 0, _, _, _ => none
  | _ + 1, _, group, [] => if group.isNone then some ([], []) else none
  | fuel + 1, depth, group, bytes => do
    let (number, form, rest) ← head? bytes
    if form = 4 then
      if group = some number then return ([], rest) else none
    else
      let (payload, rest) ←
        if form = 0 then do
          let (n, rest) ← number? rest
          some (Payload.varint n, rest)
        else if form = 1 then do
          let (_, rest) ← take? 8 rest
          some (Payload.fixed64, rest)
        else if form = 2 then do
          let (content, rest) ← delimited? rest
          some (Payload.bytes content, rest)
        else if form = 3 then
          match depth with
          | 0 => none
          | depth + 1 => do
            let (_, rest) ← readRecords fuel depth (some number) rest
            some (Payload.group, rest)
        else if form = 5 then do
          let (_, rest) ← take? 4 rest
          some (Payload.fixed32, rest)
        else none
      let (records, rest) ← readRecords fuel depth group rest
      return (⟨number, payload⟩ :: records, rest)

/-- The records of a message at a depth that is still allowed. -/
def records? (depth : Nat) (bytes : List UInt8) : Option (List Record) :=
  (readRecords (bytes.length + 1) depth none bytes).map Prod.fst

/-- Whether bytes are nothing but numbers one after the other. -/
def areVarints : (fuel : Nat) → List UInt8 → Bool
  | 0, _ => false
  | _ + 1, [] => true
  | fuel + 1, bytes =>
    match number? bytes with
    | some (_, rest) => areVarints fuel rest
    | none => false

namespace Payload

/-- The number of a payload that is one. -/
def number? : Payload → Option Nat
  | varint n => some n
  | _ => none

/-- The bytes of a payload that has some. -/
def bytes? : Payload → Option (List UInt8)
  | bytes content => some content
  | _ => none

end Payload

/-- The last number of a field. -/
def lastNumber? (number : Nat) (records : List Record) : Option Nat :=
  ((records.filter (·.number == number)).filterMap (·.payload.number?)).getLast?

/-- All byte payloads of a field, in order. -/
def allBytes (number : Nat) (records : List Record) : List (List UInt8) :=
  (records.filter (·.number == number)).filterMap (·.payload.bytes?)

/-- The last byte payload of a field. -/
def lastBytes? (number : Nat) (records : List Record) : Option (List UInt8) :=
  (allBytes number records).getLast?

end FluentGen.Wire
