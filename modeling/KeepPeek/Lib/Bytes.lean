import Mathlib.Data.List.Basic
import Mathlib.Algebra.GroupWithZero.Nat
import Mathlib.Tactic.Common

/-! Bytes at offsets, and the boxes that are written there.

An image holds a byte at every offset; a write covers a stretch of it. A box is
a body behind a header of its 32-bit size and its 32-bit name, and a stretch of
bytes is read back as boxes only when they fill it exactly. -/
namespace KeepPeek.Lib

/-- A byte at every offset. -/
def Image : Type := Nat → UInt8

namespace Image

variable (image : Image)

def blank : Image := fun _ => 0

def write (offset : Nat) (bytes : List UInt8) : Image := fun index =>
  if offset ≤ index then (bytes[index - offset]?).getD (image index) else image index

def read (offset size : Nat) : List UInt8 :=
  (List.range size).map fun index => image (offset + index)

@[simp] theorem length_read (offset size : Nat) : (image.read offset size).length = size := by
  simp [read]

theorem read_write_self (offset : Nat) (bytes : List UInt8) :
    (image.write offset bytes).read offset bytes.length = bytes := by
  apply List.ext_getElem
  · simp
  · intro index _ inside
    simp [read, write, inside]

theorem read_write_of_apart (written : Nat) (bytes : List UInt8) (offset size : Nat)
    (apart : offset + size ≤ written ∨ written + bytes.length ≤ offset) :
    (image.write written bytes).read offset size = image.read offset size := by
  apply List.map_congr_left
  intro index inside
  have bound := List.mem_range.mp inside
  unfold write
  split
  · have beyond : bytes.length ≤ offset + index - written := by omega
    simp [List.getElem?_eq_none beyond]
  · rfl

end Image

structure ByteRange where
  offset : Nat
  size : Nat
deriving DecidableEq, Repr

def ByteRange.stop (range : ByteRange) : Nat :=
  range.offset + range.size

def ByteRange.Apart (a b : ByteRange) : Prop :=
  a.stop ≤ b.offset ∨ b.stop ≤ a.offset

instance (a b : ByteRange) : Decidable (a.Apart b) := by
  unfold ByteRange.Apart
  infer_instance

def be32 (value : Nat) : List UInt8 :=
  [UInt8.ofNat (value / 2 ^ 24), UInt8.ofNat (value / 2 ^ 16), UInt8.ofNat (value / 2 ^ 8),
    UInt8.ofNat value]

def ofBe32 (a b c d : UInt8) : Nat :=
  a.toNat * 2 ^ 24 + b.toNat * 2 ^ 16 + c.toNat * 2 ^ 8 + d.toNat

theorem ofBe32_be32 (value : Nat) (fits : value < 2 ^ 32) :
    ofBe32 (UInt8.ofNat (value / 2 ^ 24)) (UInt8.ofNat (value / 2 ^ 16))
      (UInt8.ofNat (value / 2 ^ 8)) (UInt8.ofNat value) = value := by
  simp only [ofBe32, UInt8.toNat_ofNat']
  omega

structure Box where
  name : UInt32
  body : List UInt8
deriving DecidableEq, Repr

namespace Box

/-- The eight bytes in front of a body. -/
def header (name : UInt32) (size : Nat) : List UInt8 :=
  be32 size ++ be32 name.toNat

def size (box : Box) : Nat :=
  8 + box.body.length

def encode (box : Box) : List UInt8 :=
  header box.name box.size ++ box.body

@[simp] theorem length_encode (box : Box) : box.encode.length = box.size := by
  simp [encode, header, be32, size]
  omega

def decode : List UInt8 → Option (Box × List UInt8)
  | a :: b :: c :: d :: e :: f :: g :: h :: rest =>
    if 8 ≤ ofBe32 a b c d ∧ ofBe32 a b c d - 8 ≤ rest.length then
      some (⟨UInt32.ofNat (ofBe32 e f g h), rest.take (ofBe32 a b c d - 8)⟩,
        rest.drop (ofBe32 a b c d - 8))
    else none
  | _ => none

theorem decode_encode (box : Box) (rest : List UInt8) (fits : box.size < 2 ^ 32) :
    decode (box.encode ++ rest) = some (box, rest) := by
  have size := ofBe32_be32 box.size fits
  have name := ofBe32_be32 box.name.toNat box.name.toNat_lt
  have body : box.size - 8 = box.body.length := by simp [Box.size]
  simp only [encode, header, be32, List.cons_append, List.nil_append, decode, size, name, body]
  simp [Box.size]

def decodeAll : Nat → List UInt8 → Option (List Box)
  | _, [] => some []
  | 0, _ => none
  | fuel + 1, bytes =>
    match decode bytes with
    | none => none
    | some (box, rest) => (decodeAll fuel rest).map (box :: ·)

theorem decodeAll_encode (boxes : List Box) (fits : ∀ box ∈ boxes, box.size < 2 ^ 32) :
    ∀ fuel, boxes.length ≤ fuel → decodeAll fuel (boxes.flatMap encode) = some boxes := by
  induction boxes with
  | nil =>
    intro fuel _
    cases fuel <;> rfl
  | cons box rest ih =>
    intro fuel enough
    cases fuel with
    | zero => simp at enough
    | succ fuel =>
      have decoded := decode_encode box (rest.flatMap encode) (fits box (by simp))
      have others := ih (fun other inside => fits other (by simp [inside])) fuel
        (by simpa using enough)
      rw [List.flatMap_cons]
      generalize bytes_eq : box.encode ++ rest.flatMap encode = bytes at decoded
      cases bytes with
      | nil => simp [decode] at decoded
      | cons byte bytes => simp [decodeAll, decoded, others]

end Box

end KeepPeek.Lib
