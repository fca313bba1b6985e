/-!
# Reading bytes as text

Bytes that are not valid UTF-8 are shown with U+FFFD in the place of each faulty stretch: the longest start of
a character that the bytes hold, or a single byte that starts none.

## Main definitions

* `Utf8.decode`: the text that bytes hold, if they are valid.
* `Utf8.encode`: the bytes of a text.
* `Utf8.showBytes`: bytes as text, faults replaced.
* `Utf8.characters`: bytes as characters, with gaps for those that belong to none.
* `Utf8.fault?`: where the first fault is, and how many bytes it spans.
-/

namespace NameAdvisor.Utf8

def encode (s : String) : ByteArray :=
  s.toByteArray

/-- The text that `bytes` hold, if they are valid UTF-8. -/
def decode (bytes : ByteArray) : Option String :=
  String.fromUTF8? bytes

@[simp] theorem decode_encode (s : String) : decode (encode s) = some s := by
  unfold decode encode String.fromUTF8?
  rw [dif_pos s.isValidUTF8]
  rfl

theorem encode_of_decode {bytes : ByteArray} {s : String} (h : decode bytes = some s) : encode s = bytes := by
  simp only [decode, String.fromUTF8?] at h
  split at h
  · cases h
    rfl
  · cases h

/-- What the bytes at some place start with. -/
inductive Lead where
  /-- A whole character and the number of bytes it takes. -/
  | character (c : Char) (size : Nat)
  /-- A fault of `size` bytes; `cut` says that it is a character broken off by the end. -/
  | fault (size : Nat) (cut : Bool)
  deriving Repr, DecidableEq

def isContinuation (b : UInt8) : Bool :=
  0x80 ≤ b && b ≤ 0xBF

/-- The number of bytes that a lead byte announces and the bounds of the byte after it. -/
def shape (b : UInt8) : Option (Nat × UInt8 × UInt8) :=
  if 0xC2 ≤ b && b ≤ 0xDF then some (2, 0x80, 0xBF)
  else if b == 0xE0 then some (3, 0xA0, 0xBF)
  else if b == 0xED then some (3, 0x80, 0x9F)
  else if 0xE1 ≤ b && b ≤ 0xEF then some (3, 0x80, 0xBF)
  else if b == 0xF0 then some (4, 0x90, 0xBF)
  else if 0xF1 ≤ b && b ≤ 0xF3 then some (4, 0x80, 0xBF)
  else if b == 0xF4 then some (4, 0x80, 0x8F)
  else none

/-- Reads the continuation bytes that are left of a character whose bits so far are `value`. -/
def continued : Nat → Nat → Nat → List UInt8 → Lead
  | 0, value, read, _ => .character (Char.ofNat value) read
  | _ + 1, _, read, [] => .fault read true
  | left + 1, value, read, b :: rest =>
    if isContinuation b then continued left (value * 64 + b.toNat % 64) (read + 1) rest
    else .fault read false

/-- What the bytes `b :: rest` start with. -/
def lead (b : UInt8) (rest : List UInt8) : Lead :=
  if b < 0x80 then .character (Char.ofNat b.toNat) 1
  else
    match shape b with
    | none => .fault 1 false
    | some (size, low, high) =>
      let bits := if size == 2 then b.toNat % 32 else if size == 3 then b.toNat % 16 else b.toNat % 8
      match rest with
      | [] => .fault 1 true
      | second :: others =>
        if low ≤ second && second ≤ high then continued (size - 2) (bits * 64 + second.toNat % 64) 2 others
        else .fault 1 false

/-- Bytes as characters; the fuel bounds the number of characters. -/
def showFrom : Nat → List UInt8 → List Char
  | 0, _ => []
  | _, [] => []
  | fuel + 1, b :: rest =>
    match lead b rest with
    | .character c size => c :: showFrom fuel (rest.drop (size - 1))
    | .fault size _ => '\uFFFD' :: showFrom fuel (rest.drop (size - 1))

/-- Bytes as text, with U+FFFD for each faulty stretch. -/
def showBytes (bytes : ByteArray) : String :=
  match decode bytes with
  | some s => s
  | none => String.ofList (showFrom bytes.size bytes.toList)

@[simp] theorem showBytes_encode (s : String) : showBytes (encode s) = s := by
  simp [showBytes]

/-- Bytes as characters, with a gap for each byte that belongs to none; the fuel bounds the number of characters. -/
def charactersFrom : Nat → List UInt8 → List (Option Char)
  | 0, _ => []
  | _, [] => []
  | fuel + 1, b :: rest =>
    match lead b rest with
    | .character c size => some c :: charactersFrom fuel (rest.drop (size - 1))
    | .fault size _ => List.replicate size none ++ charactersFrom fuel (rest.drop (size - 1))

/-- Bytes as characters, with a gap for each byte that belongs to none. -/
def characters (bytes : ByteArray) : List (Option Char) :=
  match decode bytes with
  | some s => s.toList.map some
  | none => charactersFrom bytes.size bytes.toList

@[simp] theorem characters_encode (s : String) : characters (encode s) = s.toList.map some := by
  simp [characters]

/-- The first fault of some bytes. -/
structure Fault where
  /-- Number of valid bytes before it. -/
  index : Nat
  /-- Number of bytes it spans. -/
  size : Nat
  /-- Whether it is a character broken off by the end. -/
  cut : Bool
  deriving Repr, DecidableEq

/-- The first fault at or after the byte number `index`. -/
def faultFrom : Nat → Nat → List UInt8 → Option Fault
  | 0, _, _ => none
  | _, _, [] => none
  | fuel + 1, index, b :: rest =>
    match lead b rest with
    | .character _ size => faultFrom fuel (index + size) (rest.drop (size - 1))
    | .fault size cut => some ⟨index, size, cut⟩

/-- The first fault of `bytes`, if there is one. -/
def fault? (bytes : ByteArray) : Option Fault :=
  faultFrom bytes.size 0 bytes.toList

def Fault.message (f : Fault) : String :=
  if f.cut then s!"incomplete utf-8 byte sequence from index {f.index}"
  else s!"invalid utf-8 sequence of {f.size} bytes from index {f.index}"

end NameAdvisor.Utf8
