import Mathlib.Data.List.Basic
import Mathlib.Tactic.Ring

set_option autoImplicit false

namespace Packed

-- Values laid out in bytes one behind the other, the least significant byte of a number first.

abbrev Bytes := List UInt8

def littleEndian : Nat → Nat → Bytes
  | 0, _ => []
  | size + 1, n => UInt8.ofNat n :: littleEndian size (n / 256)

def number : Bytes → Nat
  | [] => 0
  | byte :: rest => byte.toNat + 256 * number rest

theorem length_littleEndian (size n : Nat) : (littleEndian size n).length = size := by
  induction size generalizing n with
  | zero => rfl
  | succ size ih => rw [littleEndian, List.length_cons, ih]

theorem number_littleEndian {size n : Nat} (fits : n < 256 ^ size) :
    number (littleEndian size n) = n := by
  induction size generalizing n with
  | zero =>
    rw [Nat.pow_zero, Nat.lt_one_iff] at fits
    rw [fits]
    rfl
  | succ size ih =>
    rw [Nat.pow_succ] at fits
    have rest := ih (Nat.div_lt_of_lt_mul (Nat.mul_comm _ 256 ▸ fits))
    have byte : (UInt8.ofNat n).toNat = n % 256 := UInt8.toNat_ofNat'
    rw [littleEndian, number, rest, byte]
    omega

/-- A layout of a fixed size, read back whatever comes behind it. -/
structure Codec (α : Type) where
  size : Nat
  encode : α → Bytes
  decode : Bytes → α
  length_encode : ∀ value, (encode value).length = size
  decode_encode : ∀ value rest, decode (encode value ++ rest) = value

section Numbers

theorem number_take {size n : Nat} (fits : n < 256 ^ size) (rest : Bytes) :
    number ((littleEndian size n ++ rest).take size) = n := by
  rw [List.take_left' (length_littleEndian size n), number_littleEndian fits]

def u8 : Codec UInt8 where
  size := 1
  encode value := littleEndian 1 value.toNat
  decode bytes := UInt8.ofNat (number (bytes.take 1))
  length_encode _ := length_littleEndian _ _
  decode_encode value rest := by rw [number_take value.toNat_lt, UInt8.ofNat_toNat]

def u16 : Codec UInt16 where
  size := 2
  encode value := littleEndian 2 value.toNat
  decode bytes := UInt16.ofNat (number (bytes.take 2))
  length_encode _ := length_littleEndian _ _
  decode_encode value rest := by rw [number_take value.toNat_lt, UInt16.ofNat_toNat]

def u32 : Codec UInt32 where
  size := 4
  encode value := littleEndian 4 value.toNat
  decode bytes := UInt32.ofNat (number (bytes.take 4))
  length_encode _ := length_littleEndian _ _
  decode_encode value rest := by rw [number_take value.toNat_lt, UInt32.ofNat_toNat]

def u64 : Codec UInt64 where
  size := 8
  encode value := littleEndian 8 value.toNat
  decode bytes := UInt64.ofNat (number (bytes.take 8))
  length_encode _ := length_littleEndian _ _
  decode_encode value rest := by rw [number_take value.toNat_lt, UInt64.ofNat_toNat]

end Numbers

section Composed

variable {α β : Type}

def Codec.prod (a : Codec α) (b : Codec β) : Codec (α × β) where
  size := a.size + b.size
  encode pair := a.encode pair.1 ++ b.encode pair.2
  decode bytes := (a.decode bytes, b.decode (bytes.drop a.size))
  length_encode pair := by rw [List.length_append, a.length_encode, b.length_encode]
  decode_encode pair rest := by
    rw [List.append_assoc, a.decode_encode, List.drop_left' (a.length_encode _), b.decode_encode]

def Codec.transport (a : Codec α) (wrap : α → β) (unwrap : β → α)
    (inverse : ∀ value, wrap (unwrap value) = value) : Codec β where
  size := a.size
  encode value := a.encode (unwrap value)
  decode bytes := wrap (a.decode bytes)
  length_encode _ := a.length_encode _
  decode_encode value rest := by rw [a.decode_encode, inverse]

def decodeList (a : Codec α) : Nat → Bytes → List α
  | 0, _ => []
  | count + 1, bytes => a.decode bytes :: decodeList a count (bytes.drop a.size)

theorem length_decodeList (a : Codec α) (count : Nat) (bytes : Bytes) :
    (decodeList a count bytes).length = count := by
  induction count generalizing bytes with
  | zero => rfl
  | succ count ih => rw [decodeList, List.length_cons, ih]

theorem length_flatMap_encode (a : Codec α) (values : List α) :
    (values.flatMap a.encode).length = values.length * a.size := by
  induction values with
  | nil => exact (Nat.zero_mul _).symm
  | cons value rest ih =>
    rw [List.flatMap_cons, List.length_append, a.length_encode, ih, List.length_cons]
    ring

theorem decodeList_flatMap (a : Codec α) (values : List α) (rest : Bytes) :
    decodeList a values.length (values.flatMap a.encode ++ rest) = values := by
  induction values with
  | nil => rfl
  | cons value values ih =>
    rw [List.length_cons, decodeList, List.flatMap_cons, List.append_assoc, a.decode_encode,
      List.drop_left' (a.length_encode value), ih]

def Codec.table (a : Codec α) (count : Nat) : Codec { values : List α // values.length = count } where
  size := count * a.size
  encode values := values.1.flatMap a.encode
  decode bytes := ⟨decodeList a count bytes, length_decodeList a count bytes⟩
  length_encode values := by rw [length_flatMap_encode, values.2]
  decode_encode values rest := by
    obtain ⟨values, rfl⟩ := values
    exact Subtype.ext (decodeList_flatMap a values rest)

end Composed

theorem Codec.decode_of_starts {α : Type} (a : Codec α) {value : α} {bytes : Bytes}
    (starts : a.encode value <+: bytes) : a.decode bytes = value := by
  obtain ⟨rest, rfl⟩ := starts
  exact a.decode_encode value rest

def HasAt (image : Bytes) (offset : Nat) (bytes : Bytes) : Prop :=
  bytes <+: image.drop offset

-- A read of at most `size` bytes, which leaves of the buffer what it does not fill.
def readAt (image : Bytes) (offset size : Nat) (buffer : Bytes) : Bytes :=
  (image.drop offset).take size ++ buffer.drop ((image.drop offset).take size).length

theorem readAt_starts {image bytes : Bytes} {offset size : Nat} (has : HasAt image offset bytes)
    (fits : bytes.length ≤ size) (buffer : Bytes) : bytes <+: readAt image offset size buffer := by
  have whole : bytes <+: (image.drop offset).take size := List.prefix_take_iff.mpr ⟨has, fits⟩
  exact whole.trans (List.prefix_append _ _)

theorem hasAt_append {front : Bytes} {offset : Nat} (length : front.length = offset)
    (bytes back : Bytes) : HasAt (front ++ (bytes ++ back)) offset bytes := by
  rw [HasAt, List.drop_left' length]
  exact List.prefix_append _ _

end Packed
