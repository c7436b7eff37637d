import Dataflow.Text.Quoted

/-!
# Decoding UTF-8

Strict decoding. An error spans the bytes that could still begin a character, and says whether the
text ended too early, a byte starts no character, or a byte does not continue one.
-/

namespace Dataflow.Text

/-- What is wrong with a run of bytes. -/
inductive Utf8Fault where
  | badStart
  | badContinuation
  | truncated
deriving DecidableEq, Repr

/-- Bytes that are no UTF-8: where they are and the first of them. -/
structure Utf8Error where
  position : Nat
  length : Nat
  first : UInt8
  fault : Utf8Fault
deriving DecidableEq, Repr

def Utf8Fault.message : Utf8Fault → String
  | badStart => "invalid start byte"
  | badContinuation => "invalid continuation byte"
  | truncated => "unexpected end of data"

def Utf8Error.message (e : Utf8Error) : String :=
  let place :=
    if e.length = 1 then
      "byte 0x" ++ String.ofList (hex 2 e.first.toNat) ++ " in position " ++ toString e.position
    else
      "bytes in position " ++ toString e.position ++ "-" ++ toString (e.position + e.length - 1)
  "'utf-8' codec can't decode " ++ place ++ ": " ++ e.fault.message

/-- The number of bytes that a first byte announces, and the range of the second byte. -/
def announced? (b : UInt8) : Option (Nat × Nat × Nat) :=
  let n := b.toNat
  if n < 0x80 then some (1, 0, 0)
  else if n < 0xc2 then none
  else if n < 0xe0 then some (2, 0x80, 0xbf)
  else if n = 0xe0 then some (3, 0xa0, 0xbf)
  else if n = 0xed then some (3, 0x80, 0x9f)
  else if n < 0xf0 then some (3, 0x80, 0xbf)
  else if n = 0xf0 then some (4, 0x90, 0xbf)
  else if n < 0xf4 then some (4, 0x80, 0xbf)
  else if n = 0xf4 then some (4, 0x80, 0x8f)
  else none

/-- A character that still needs bytes. -/
structure Unfinished where
  position : Nat
  first : UInt8
  /-- The bytes read so far. -/
  length : Nat
  /-- The bytes still needed. -/
  missing : Nat
  /-- The range of the next byte. -/
  low : Nat
  high : Nat
  /-- The bits so far. -/
  bits : Nat

/-- The bits that a first byte of a character of `n` bytes gives. -/
def leadBits (n : Nat) (b : UInt8) : Nat :=
  match n with
  | 1 => b.toNat
  | 2 => b.toNat % 0x20
  | 3 => b.toNat % 0x10
  | _ => b.toNat % 0x08

/-- Decodes bytes from a position on, with the characters so far in reverse. -/
def decodeFrom (position : Nat) (soFar : List Char) (pending : Option Unfinished) :
    List UInt8 → Except Utf8Error (List Char)
  | [] =>
      match pending with
      | none => .ok soFar.reverse
      | some p => .error ⟨p.position, p.length, p.first, .truncated⟩
  | b :: bs =>
      match pending with
      | none =>
          match announced? b with
          | none => .error ⟨position, 1, b, .badStart⟩
          | some (1, _, _) => decodeFrom (position + 1) (Char.ofNat b.toNat :: soFar) none bs
          | some (n, low, high) =>
              decodeFrom (position + 1) soFar
                (some ⟨position, b, 1, n - 1, low, high, leadBits n b⟩) bs
      | some p =>
          if b.toNat < p.low ∨ p.high < b.toNat then
            .error ⟨p.position, p.length, p.first, .badContinuation⟩
          else
            let bits := p.bits * 0x40 + b.toNat % 0x40
            if p.missing = 1 then decodeFrom (position + 1) (Char.ofNat bits :: soFar) none bs
            else
              decodeFrom (position + 1) soFar
                (some { p with length := p.length + 1, missing := p.missing - 1, low := 0x80,
                               high := 0xbf, bits := bits }) bs

/-- Decodes a whole text. -/
def decode (bytes : List UInt8) : Except Utf8Error (List Char) := decodeFrom 0 [] none bytes

/-- Line ends of any kind as line feeds. -/
def unifyLines : List Char → List Char
  | '\r' :: '\n' :: cs => '\n' :: unifyLines cs
  | '\r' :: cs => '\n' :: unifyLines cs
  | c :: cs => c :: unifyLines cs
  | [] => []

end Dataflow.Text
