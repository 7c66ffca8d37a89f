import VmDeploy.Encoding.Trim
import VmDeploy.Encoding.Utf8

/-! `strings.TrimSpace` and `filepath.Dir` of the Go standard library. -/

set_option autoImplicit false

namespace Golang

/-- `unicode.IsSpace` -/
def isSpace (c : Char) : Bool :=
  let code := c.toNat
  (9 ≤ code && code ≤ 13) || code == 32 || code == 0x85 || code == 0xA0 || code == 0x1680 ||
    (0x2000 ≤ code && code ≤ 0x200A) || code == 0x2028 || code == 0x2029 || code == 0x202F ||
    code == 0x205F || code == 0x3000

def spacePiece (piece : Option Char × List UInt8) : Bool :=
  piece.1.any isSpace

def trimSpace (bytes : List UInt8) : List UInt8 :=
  (((Utf8.cut 0 bytes).dropWhile spacePiece).rdropWhile spacePiece).flatMap Prod.snd

theorem encode_ascii {bytes : List UInt8} (ascii : ∀ byte ∈ bytes, byte.toNat < 128) :
    Utf8.encode (bytes.map Char.ofUInt8) = bytes := by
  induction bytes with
  | nil => rfl
  | cons byte bytes ih =>
    obtain ⟨small, later⟩ := List.forall_mem_cons.mp ascii
    have one : ∀ code : Fin 128, String.utf8EncodeChar (Char.ofUInt8 (UInt8.ofNat code)) =
        [UInt8.ofNat code] := by decide
    have here := one ⟨byte.toNat, small⟩
    simp only [UInt8.ofNat_toNat] at here
    rw [List.map_cons, Utf8.encode, List.flatMap_cons, here]
    exact congrArg (byte :: ·) (ih later)

theorem trimSpace_visible {bytes : List UInt8}
    (visible : ∀ byte ∈ bytes, byte.toNat < 128 ∧ isSpace (Char.ofUInt8 byte) = false) :
    trimSpace bytes = bytes := by
  have ascii := encode_ascii fun byte member => (visible byte member).1
  have pieces := Utf8.cut_encode (bytes.map Char.ofUInt8)
  rw [ascii] at pieces
  have none : ∀ piece ∈ Utf8.cut 0 bytes, spacePiece piece = false := by
    intro piece member
    rw [pieces, List.map_map] at member
    obtain ⟨byte, within, rfl⟩ := List.mem_map.mp member
    exact (visible byte within).2
  have front : (Utf8.cut 0 bytes).dropWhile spacePiece = Utf8.cut 0 bytes := by
    cases known : Utf8.cut 0 bytes with
    | nil => rfl
    | cons piece rest =>
      have here := none piece (known ▸ List.mem_cons_self)
      rw [List.dropWhile_cons, here]
      rfl
  have back : (Utf8.cut 0 bytes).rdropWhile spacePiece = Utf8.cut 0 bytes := by
    rw [List.rdropWhile_eq_self_iff]
    intro nonempty space
    rw [none _ (List.getLast_mem nonempty)] at space
    cases space
  rw [trimSpace, front, back, pieces, List.flatMap_map]
  exact ascii

-- An ASCII text is trimmed byte by byte.
theorem trimSpace_ascii {bytes : List UInt8} (ascii : ∀ byte ∈ bytes, byte.toNat < 128) :
    trimSpace bytes = Trim.trim (fun byte => isSpace (Char.ofUInt8 byte)) bytes := by
  have one : ∀ code : Fin 128, String.utf8EncodeChar (Char.ofUInt8 (UInt8.ofNat code)) =
      [UInt8.ofNat code] := by decide
  have pieces : Utf8.cut 0 bytes = bytes.map fun byte => (some (Char.ofUInt8 byte), [byte]) := by
    have cuts := Utf8.cut_encode (bytes.map Char.ofUInt8)
    rw [encode_ascii ascii, List.map_map] at cuts
    rw [cuts]
    refine List.map_congr_left fun byte member => ?_
    have here := one ⟨byte.toNat, ascii byte member⟩
    simp only [UInt8.ofNat_toNat] at here
    exact congrArg (Prod.mk _) here
  have trims : trimSpace bytes = (Trim.trim spacePiece (Utf8.cut 0 bytes)).flatMap Prod.snd := rfl
  rw [trims, pieces, Trim.trim_map, List.flatMap_map]
  exact List.flatMap_singleton' _

def pathElement (rooted : Bool) (elements : List (List Char)) (next : List Char) :
    List (List Char) :=
  if next = [] ∨ next = ['.'] then elements
  else if next = ['.', '.'] then
    match elements with
    | [] => if rooted then [] else [next]
    | last :: rest => if last = ['.', '.'] then next :: elements else rest
  else next :: elements

/-- `filepath.Clean` -/
def cleanPath (path : List Char) : List Char :=
  let rooted := path.head? == some '/'
  let elements := ((path.splitOn '/').foldl (pathElement rooted) []).reverse
  let joined := ['/'].intercalate elements
  if rooted then '/' :: joined else if joined = [] then ['.'] else joined

/-- `filepath.Dir` -/
def directoryOf (path : String) : String :=
  String.ofList (cleanPath (path.toList.rdropWhile (· ≠ '/')))

example : directoryOf "/opt/inventory//./inventory.enc" = "/opt/inventory" := by decide

end Golang
