/-! Text that arrives as UTF-8 bytes in chunks. A chunk may end inside a character, so the decoder
holds back the bytes of a character that a later byte can still complete, at most three of them.
Bytes that belong to no character are replaced, each longest run of them that begins one as a
whole. -/
namespace EngineBridge.Utf8

def replacement : Char := '\uFFFD'

def isContinuation (b : UInt8) : Bool :=
  0x80 ≤ b && b ≤ 0xBF

/-- Which second bytes `lead` admits. Four leads admit fewer than all continuations, as the rest
would spell a character in too many bytes, a surrogate, or a number above `10FFFF`. -/
def secondFits (lead second : UInt8) : Bool :=
  if lead = 0xE0 then 0xA0 ≤ second && second ≤ 0xBF
  else if lead = 0xED then 0x80 ≤ second && second ≤ 0x9F
  else if lead = 0xF0 then 0x90 ≤ second && second ≤ 0xBF
  else if lead = 0xF4 then 0x80 ≤ second && second ≤ 0x8F
  else isContinuation second

inductive Head where
  | whole (size : Nat)
  /-- so many bytes that no further ones can complete -/
  | broken (size : Nat)
  | unfinished
  deriving DecidableEq, Repr

/-- What must hold of the bytes after `lead`, if `lead` begins a character. -/
def followers? (lead : UInt8) : Option (List (UInt8 → Bool)) :=
  if lead < 0x80 then some []
  else if 0xC2 ≤ lead && lead ≤ 0xDF then some [isContinuation]
  else if 0xE0 ≤ lead && lead ≤ 0xEF then some [secondFits lead, isContinuation]
  else if 0xF0 ≤ lead && lead ≤ 0xF4 then some [secondFits lead, isContinuation, isContinuation]
  else none

def follow (size : Nat) : List (UInt8 → Bool) → List UInt8 → Head
  | [], _ => .whole size
  | _ :: _, [] => .unfinished
  | fits :: more, b :: rest => if fits b then follow (size + 1) more rest else .broken size

def head (lead : UInt8) (rest : List UInt8) : Head :=
  match followers? lead with
  | some followers => follow 1 followers rest
  | none => .broken 1

structure Fault where
  validUpTo : Nat
  /-- how many bytes are at fault, unless the bytes end inside a character -/
  length : Option Nat
  deriving DecidableEq, Repr

def faultFrom (done : Nat) : List UInt8 → Option Fault
  | [] => none
  | lead :: rest =>
    match head lead rest with
    | .whole size => faultFrom (done + size) (rest.drop (size - 1))
    | .broken size => some ⟨done, some size⟩
    | .unfinished => some ⟨done, none⟩
termination_by bytes => bytes.length
decreasing_by
  rw [List.length_drop, List.length_cons]
  exact Nat.lt_succ_of_le (Nat.sub_le _ _)

def fault? (bytes : List UInt8) : Option Fault := faultFrom 0 bytes

def textOf (bytes : List UInt8) : String :=
  (String.fromUTF8? bytes.toByteArray).getD ""

theorem lt_size_of_follow {size fault : Nat} {followers : List (UInt8 → Bool)}
    {bytes : List UInt8} (h : follow size followers bytes = .broken fault) (hs : 0 < size) :
    0 < fault := by
  induction followers generalizing size bytes with
  | nil => simp [follow] at h
  | cons fits more ih =>
    cases bytes with
    | nil => simp [follow] at h
    | cons b rest =>
      simp only [follow] at h
      split at h
      · exact ih h (by omega)
      · cases h
        exact hs

theorem pos_of_head {lead : UInt8} {rest : List UInt8} {fault : Nat}
    (h : head lead rest = .broken fault) : 0 < fault := by
  unfold head at h
  split at h
  · exact lt_size_of_follow h (by omega)
  · cases h
    omega

theorem pos_of_faultFrom {done : Nat} {bytes : List UInt8} {validUpTo length : Nat}
    (h : faultFrom done bytes = some ⟨validUpTo, some length⟩) : 0 < length ∧ bytes ≠ [] := by
  fun_induction faultFrom done bytes with
  | case1 => contradiction
  | case2 done lead rest size hs ih => exact ⟨(ih h).1, by simp⟩
  | case3 done lead rest size hs =>
    cases h
    exact ⟨pos_of_head hs, by simp⟩
  | case4 => simp at h

/-- A stream of bytes read so far, of which only the unfinished last character is kept. -/
structure Decoder where
  held : List UInt8 := []
  deriving DecidableEq, Repr, Inhabited

namespace Decoder

def pending (d : Decoder) : Nat := d.held.length

/-- Reads up to the end or to the unfinished character there, which is held. One replacement stands
for each fault before it. -/
def readInto (text : String) (bytes : List UInt8) : Decoder × String :=
  match _h : fault? bytes with
  | none => ({}, text ++ textOf bytes)
  | some ⟨validUpTo, none⟩ => (⟨bytes.drop validUpTo⟩, text ++ textOf (bytes.take validUpTo))
  | some ⟨validUpTo, some length⟩ =>
    readInto ((text ++ textOf (bytes.take validUpTo)).push replacement)
      ((bytes.drop validUpTo).drop length)
termination_by bytes.length
decreasing_by
  obtain ⟨hlength, hbytes⟩ := pos_of_faultFrom _h
  have := List.length_pos_iff.mpr hbytes
  simp only [List.length_drop]
  omega

def decode (d : Decoder) (chunk : ByteArray) : Decoder × String :=
  readInto "" (d.held ++ chunk.data.toList)

def finish (d : Decoder) : Decoder × String :=
  ({}, if d.held.isEmpty then "" else replacement.toString)

end Decoder

def complete? (bytes : List UInt8) : Option Char :=
  (bytes.take 4).toByteArray.utf8DecodeChar? 0

def isPartial : List UInt8 → Bool
  | [a] => 0xC2 ≤ a && a ≤ 0xF4
  | [a, b] => 0xE0 ≤ a && a ≤ 0xF4 && secondFits a b
  | [a, b, c] => 0xF0 ≤ a && a ≤ 0xF4 && secondFits a b && isContinuation c
  | _ => false

/-- How many bytes one replacement stands for, where no character begins: as many as begin one, and
otherwise a single byte. -/
def replaced (bytes : List UInt8) : Nat :=
  if isPartial (bytes.take 3) then 3 else if isPartial (bytes.take 2) then 2 else 1

theorem replaced_pos (bytes : List UInt8) : 0 < replaced bytes := by
  unfold replaced
  repeat' split
  all_goals omega

def readAll (text : String) : List UInt8 → String
  | [] => text
  | b :: rest =>
    match complete? (b :: rest) with
    | some c => readAll (text.push c) ((b :: rest).drop c.utf8Size)
    | none => readAll (text.push replacement) ((b :: rest).drop (replaced (b :: rest)))
termination_by bytes => bytes.length
decreasing_by
  · have := c.utf8Size_pos
    simp only [List.length_drop, List.length_cons]
    omega
  · have := replaced_pos (b :: rest)
    simp only [List.length_drop, List.length_cons]
    omega

def decodeAll (bytes : ByteArray) : String := readAll "" bytes.data.toList

end EngineBridge.Utf8
