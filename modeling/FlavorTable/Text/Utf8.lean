/-!
# Strict UTF-8

Files hold UTF-8 and are read strictly: no byte sequence is replaced or
skipped, and a byte-order mark is an ordinary character. The decoder reads
byte by byte and keeps the character that is under way in a `Pending` state.
The second byte of a sequence is narrowed by the first (`Pending.low`,
`Pending.high`), which is what keeps out overlong forms, surrogates and
values beyond `10FFFF`.

A refusal is located by a `Fault`. It covers the bytes of the unfinished
character read so far: the offending byte alone when it can start no
character, the good beginning of the sequence when a continuation byte is
wrong, and everything up to the end of the input when the input stops short.

## Main results

* `decodeFrom_ascii` — a byte below `80` is a character by itself.
-/

namespace FlavorTable.Text.Utf8

/-- What is wrong with a byte sequence. -/
inductive Defect where
  /-- The byte cannot start a character. -/
  | badStart
  /-- The next byte cannot continue the character under way. -/
  | badContinuation
  /-- The input ends inside a character. -/
  | truncated
  deriving DecidableEq, Repr

/-- Where decoding stopped: `length` bytes from `position` on, the first of them `lead`. -/
structure Fault where
  position : Nat
  length : Nat
  lead : UInt8
  defect : Defect
  deriving DecidableEq, Repr

/-- A character whose first byte has been read and whose last byte has not. -/
structure Pending where
  lead : UInt8
  /-- Where the first byte stands. -/
  start : Nat
  /-- How many bytes have been read. -/
  seen : Nat
  /-- How many bytes are still to come after the next one. -/
  missing : Nat
  /-- The least value that the next byte may have. -/
  low : Nat
  /-- The greatest value that the next byte may have. -/
  high : Nat
  /-- The value of the bytes read so far. -/
  code : Nat

/-- The refusal of the character under way. -/
def Pending.fault (pending : Pending) (defect : Defect) : Fault :=
  ⟨pending.start, pending.seen, pending.lead, defect⟩

/-- The character that the byte `lead` at `start` begins, if it begins one of several bytes. -/
def Pending.ofLead? (start : Nat) (lead : UInt8) : Option Pending :=
  let n := lead.toNat
  if 0xC2 ≤ n ∧ n ≤ 0xDF then some ⟨lead, start, 1, 0, 0x80, 0xBF, n - 0xC0⟩
  else if 0xE0 ≤ n ∧ n ≤ 0xEF then
    some ⟨lead, start, 1, 1, if n = 0xE0 then 0xA0 else 0x80, if n = 0xED then 0x9F else 0xBF,
      n - 0xE0⟩
  else if 0xF0 ≤ n ∧ n ≤ 0xF4 then
    some ⟨lead, start, 1, 2, if n = 0xF0 then 0x90 else 0x80, if n = 0xF4 then 0x8F else 0xBF,
      n - 0xF0⟩
  else none

/-- The value of the character under way with one more byte. -/
def Pending.extend (pending : Pending) (byte : UInt8) : Nat :=
  pending.code * 64 + (byte.toNat - 0x80)

/-- The characters of the bytes from `position` on, given the character under way. -/
def decodeFrom : Nat → Option Pending → List UInt8 → Except Fault (List Char)
  | _, none, [] => .ok []
  | _, some pending, [] => .error (pending.fault .truncated)
  | position, none, byte :: rest =>
      if byte.toNat < 0x80 then
        (decodeFrom (position + 1) none rest).map (Char.ofNat byte.toNat :: ·)
      else
        match Pending.ofLead? position byte with
        | some pending => decodeFrom (position + 1) (some pending) rest
        | none => .error ⟨position, 1, byte, .badStart⟩
  | position, some pending, byte :: rest =>
      if byte.toNat < pending.low ∨ pending.high < byte.toNat then
        .error (pending.fault .badContinuation)
      else
        match pending.missing with
        | 0 => (decodeFrom (position + 1) none rest).map (Char.ofNat (pending.extend byte) :: ·)
        | missing + 1 =>
            decodeFrom (position + 1)
              (some ⟨pending.lead, pending.start, pending.seen + 1, missing, 0x80, 0xBF,
                pending.extend byte⟩) rest

/-- The text that the bytes encode. -/
def decode (bytes : List UInt8) : Except Fault String :=
  (decodeFrom 0 none bytes).map String.ofList

/-- A byte below `80` is a character by itself. -/
theorem decodeFrom_ascii (position : Nat) {byte : UInt8} (rest : List UInt8)
    (h : byte.toNat < 0x80) :
    decodeFrom position none (byte :: rest) =
      (decodeFrom (position + 1) none rest).map (Char.ofNat byte.toNat :: ·) := by
  simp [decodeFrom, h]

end FlavorTable.Text.Utf8
