import Mathlib.Data.List.Basic
import Mathlib.Data.List.Defs

/-! AES-256 in Galois/counter mode, with a nonce of twelve bytes and no associated data.

That a sealed text opens again needs nothing of the block cipher: the key stream is the
same on both sides, and the tag is compared with one that is computed again. -/

set_option autoImplicit false

namespace AesGcm

abbrev Bytes := List UInt8

def xor (left right : Bytes) : Bytes :=
  List.zipWith (· ^^^ ·) left right

def bigEndian : (count number : Nat) → Bytes
  | 0, _ => []
  | count + 1, number => bigEndian count (number / 256) ++ [UInt8.ofNat (number % 256)]

def number (bytes : Bytes) : Nat :=
  bytes.foldl (fun total byte => 256 * total + byte.toNat) 0

theorem length_bigEndian (count number : Nat) : (bigEndian count number).length = count := by
  induction count generalizing number with
  | zero => rfl
  | succ count ih => rw [bigEndian, List.length_append, ih, List.length_singleton]

def substitutions : Bytes :=
  [99, 124, 119, 123, 242, 107, 111, 197, 48, 1, 103, 43, 254, 215, 171, 118, 202, 130, 201, 125,
    250, 89, 71, 240, 173, 212, 162, 175, 156, 164, 114, 192, 183, 253, 147, 38, 54, 63, 247, 204,
    52, 165, 229, 241, 113, 216, 49, 21, 4, 199, 35, 195, 24, 150, 5, 154, 7, 18, 128, 226, 235, 39,
    178, 117, 9, 131, 44, 26, 27, 110, 90, 160, 82, 59, 214, 179, 41, 227, 47, 132, 83, 209, 0, 237,
    32, 252, 177, 91, 106, 203, 190, 57, 74, 76, 88, 207, 208, 239, 170, 251, 67, 77, 51, 133, 69,
    249, 2, 127, 80, 60, 159, 168, 81, 163, 64, 143, 146, 157, 56, 245, 188, 182, 218, 33, 16, 255,
    243, 210, 205, 12, 19, 236, 95, 151, 68, 23, 196, 167, 126, 61, 100, 93, 25, 115, 96, 129, 79,
    220, 34, 42, 144, 136, 70, 238, 184, 20, 222, 94, 11, 219, 224, 50, 58, 10, 73, 6, 36, 92, 194,
    211, 172, 98, 145, 149, 228, 121, 231, 200, 55, 109, 141, 213, 78, 169, 108, 86, 244, 234, 101,
    122, 174, 8, 186, 120, 37, 46, 28, 166, 180, 198, 232, 221, 116, 31, 75, 189, 139, 138, 112, 62,
    181, 102, 72, 3, 246, 14, 97, 53, 87, 185, 134, 193, 29, 158, 225, 248, 152, 17, 105, 217, 142,
    148, 155, 30, 135, 233, 206, 85, 40, 223, 140, 161, 137, 13, 191, 230, 66, 104, 65, 153, 45, 15,
    176, 84, 187, 22]

def substitute (bytes : Bytes) : Bytes :=
  bytes.map fun byte => substitutions.getD byte.toNat 0

def double (byte : UInt8) : UInt8 :=
  (byte <<< 1) ^^^ (if byte < 128 then 0 else 27)

/-- Word `index` of the schedule, from the words before it, the last one first. -/
def nextWord (index : Nat) (words : List Bytes) : Bytes :=
  let last := words.getD 0 []
  let mixed :=
    if index % 8 = 0 then
      xor (substitute (last.drop 1 ++ last.take 1)) [1 <<< UInt8.ofNat (index / 8 - 1), 0, 0, 0]
    else if index % 8 = 4 then substitute last
    else last
  xor (words.getD 7 []) mixed

def roundKeys (key : Bytes) : List Bytes :=
  let words := (key.toChunks 4).reverse
  let schedule := (List.range 52).foldl (fun words index => nextWord (index + 8) words :: words) words
  schedule.reverse.flatten.toChunks 16

/-- The state is kept column by column. -/
def shiftRows (state : Bytes) : Bytes :=
  (List.range 16).map fun place => state.getD (5 * place % 16) 0

def mixColumns : Bytes → Bytes
  | a :: b :: c :: d :: rest =>
      mixed a b c d :: mixed b c d a :: mixed c d a b :: mixed d a b c :: mixColumns rest
  | _ => []
where
  mixed (a b c d : UInt8) : UInt8 := double a ^^^ double b ^^^ b ^^^ c ^^^ d

def encryptBlock (key block : Bytes) : Bytes :=
  match roundKeys key with
  | [] => []
  | first :: rest =>
      let state := rest.dropLast.foldl
        (fun state roundKey => xor (mixColumns (shiftRows (substitute state))) roundKey)
        (xor block first)
      xor (shiftRows (substitute state)) (rest.getLastD [])

def counterBlock (nonce : Bytes) (count : Nat) : Bytes :=
  nonce ++ bigEndian 4 count

def keyStream (key nonce : Bytes) (length : Nat) : Bytes :=
  (List.range (length / 16 + 1)).flatMap fun index =>
    encryptBlock key (counterBlock nonce (index + 2))

def masked (stream text : Bytes) : Bytes :=
  text.mapIdx fun index byte => byte ^^^ stream.getD index 0

/-- The product in the field of the authentication, whose first bit is the lowest power. -/
def product (left right : Nat) : Nat :=
  ((List.range 128).foldl (fun (sum, power) bit =>
    (if left.testBit (127 - bit) then sum ^^^ power else sum,
      if power.testBit 0 then (power >>> 1) ^^^ (225 <<< 120) else power >>> 1)) (0, right)).1

def padded (text : Bytes) : Bytes :=
  text ++ List.replicate ((16 - text.length % 16) % 16) 0

def tag (key nonce sealed : Bytes) : Bytes :=
  let hashKey := number (encryptBlock key (List.replicate 16 0))
  let blocks := (padded sealed ++ bigEndian 8 0 ++ bigEndian 8 (8 * sealed.length)).toChunks 16
  let digest := blocks.foldl (fun digest block => product (digest ^^^ number block) hashKey) 0
  bigEndian 16 (digest ^^^ number (encryptBlock key (counterBlock nonce 1)))

def encrypt (key nonce plaintext : Bytes) : Bytes :=
  let sealed := masked (keyStream key nonce plaintext.length) plaintext
  sealed ++ tag key nonce sealed

def decrypt (key nonce text : Bytes) : Option Bytes :=
  let sealed := text.take (text.length - 16)
  if text.drop (text.length - 16) = tag key nonce sealed then
    some (masked (keyStream key nonce sealed.length) sealed)
  else none

theorem length_masked (stream text : Bytes) : (masked stream text).length = text.length :=
  List.length_mapIdx

theorem masked_masked (stream text : Bytes) : masked stream (masked stream text) = text := by
  have twice : ∀ byte mask : UInt8, byte ^^^ mask ^^^ mask = byte := by
    intro byte mask
    rw [UInt8.xor_assoc, UInt8.xor_self, UInt8.xor_zero]
  apply List.ext_getElem
  · rw [length_masked, length_masked]
  · intro index _ _
    simp only [masked, List.getElem_mapIdx, twice]

theorem length_tag (key nonce sealed : Bytes) : (tag key nonce sealed).length = 16 :=
  length_bigEndian 16 _

theorem length_encrypt (key nonce plaintext : Bytes) :
    (encrypt key nonce plaintext).length = plaintext.length + 16 := by
  rw [encrypt, List.length_append, length_masked, length_tag]

theorem decrypt_encrypt (key nonce plaintext : Bytes) :
    decrypt key nonce (encrypt key nonce plaintext) = some plaintext := by
  let sealed := masked (keyStream key nonce plaintext.length) plaintext
  have whole : encrypt key nonce plaintext = sealed ++ tag key nonce sealed := rfl
  have front : (sealed ++ tag key nonce sealed).length - 16 = sealed.length := by
    rw [List.length_append, length_tag, Nat.add_sub_cancel]
  rw [whole, decrypt, front, List.take_left, List.drop_left, if_pos rfl, length_masked]
  exact congrArg some (masked_masked _ _)

example : encrypt ((List.range 32).map UInt8.ofNat) ((List.range 12).map UInt8.ofNat) [91, 93] =
    [28, 95, 21, 48, 76, 144, 230, 250, 17, 207, 26, 252, 102, 159, 88, 30, 238, 255] := by
  decide +kernel

end AesGcm
