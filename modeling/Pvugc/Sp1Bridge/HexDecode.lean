import Pvugc.Sp1Bridge.GnarkPoint

namespace Pvugc.Sp1Bridge
open Pvugc.Algebra Pvugc.Encoding

section Strings

/-- The length of a string in UTF-8 bytes. -/
def byteLength (s : List Char) : ℕ := (s.map Char.utf8Size).sum

/-- The characters behind a byte offset, if it is the boundary of a character. -/
def dropBytes : List Char → ℕ → Option (List Char)
  | s, 0 => some s
  | [], _ + 1 => none
  | c :: s, n + 1 => if c.utf8Size ≤ n + 1 then dropBytes s (n + 1 - c.utf8Size) else none

/-- The characters in front of a byte offset, if it is the boundary of a character. -/
def takeBytes : List Char → ℕ → Option (List Char)
  | _, 0 => some []
  | [], _ + 1 => none
  | c :: s, n + 1 => if c.utf8Size ≤ n + 1 then (takeBytes s (n + 1 - c.utf8Size)).map (c :: ·) else none

/-- A slice of a string panics where an offset is inside a character. -/
def sliceStr (s : List Char) (start stop : ℕ) : Except Fault (List Char) :=
  match (dropBytes s start).bind fun tail => takeBytes tail (stop - start) with
  | some slice => .ok slice
  | none => .error .panic

/-- The text behind the prefix, if the string starts with it. -/
def stripPrefix : List Char → Option (List Char)
  | '0' :: 'x' :: rest => some rest
  | _ => none

/-- The characters with the property `White_Space`. -/
def isWhitespace (c : Char) : Bool :=
  (9 ≤ c.toNat && c.toNat ≤ 13) || c.toNat == 0x20 || c.toNat == 0x85 || c.toNat == 0xA0 || c.toNat == 0x1680 ||
    (0x2000 ≤ c.toNat && c.toNat ≤ 0x200A) || c.toNat == 0x2028 || c.toNat == 0x2029 || c.toNat == 0x202F ||
    c.toNat == 0x205F || c.toNat == 0x3000

def trim (s : List Char) : List Char :=
  ((s.dropWhile isWhitespace).reverse.dropWhile isWhitespace).reverse

/-- The value of a hexadecimal digit. -/
def toDigit16 (c : Char) : Option ℕ :=
  if '0' ≤ c ∧ c ≤ '9' then some (c.toNat - 48)
  else if 'a' ≤ c ∧ c ≤ 'f' then some (c.toNat - 87)
  else if 'A' ≤ c ∧ c ≤ 'F' then some (c.toNat - 55)
  else none

/-- The digits of a number that has to stay below `256`. -/
def parseDigits16 : List Char → ℕ → Option UInt8
  | [], value => some (UInt8.ofNat value)
  | c :: digits, value =>
      match toDigit16 c with
      | none => none
      | some digit => if 16 * value + digit < 256 then parseDigits16 digits (16 * value + digit) else none

/-- `u8::from_str_radix` in base sixteen, which takes a plus sign. -/
def fromStrRadix16 : List Char → Option UInt8
  | [] => none
  | ['+'] => none
  | ['-'] => none
  | '+' :: digits => parseDigits16 digits 0
  | digits => parseDigits16 digits 0

end Strings

section Code

/-- One step of the loop over the pairs of bytes. -/
def hexPair (hex : List Char) (i : ℕ) : Except Fault UInt8 := do
  match fromStrRadix16 (← sliceStr hex i (i + 2)) with
  | some byte => return byte
  | none => throw (.error (.deserializationError s!"Invalid hex at {i}"))

def hexDecode (hex : List Char) : Except Fault (List UInt8) := do
  let hex := (stripPrefix hex).getD hex
  if byteLength hex % 2 ≠ 0 then throw (.error (.deserializationError "Odd hex length"))
  (List.range' 0 (byteLength hex / 2) 2).mapM (hexPair hex)

def decodeSp1ProofHex (hexProof : String) : Except Fault (List UInt8) := hexDecode hexProof.toList

def fr377Modulus : ℕ := 0x12ab655e9a2ca55660b44d1e5c37b00159aa76fed00000010a11800000000001

abbrev Fr377 := ZMod fr377Modulus

/-- The decimal parser of the field library is a parameter. -/
def decodeSp1PublicInput (fromStr : List Char → Option Fr377) (hexInput : String) : Except Fault Fr377 := do
  let s := trim hexInput.toList
  match stripPrefix s with
  | some hex =>
      let bytes ← hexDecode hex
      return (beValue bytes : Fr377)
  | none =>
      match fromStr s with
      | some input => return input
      | none => throw (.error (.deserializationError
          ("Invalid SP1 public input string (expected decimal or 0x-hex): " ++ String.ofList s)))

end Code

section Grammar

def HexDigit (c : Char) : Prop := ('0' ≤ c ∧ c ≤ '9') ∨ ('a' ≤ c ∧ c ≤ 'f') ∨ ('A' ≤ c ∧ c ≤ 'F')

def digitValue (c : Char) : ℕ := (toDigit16 c).getD 0

/-- The byte of a pair of digits. -/
def pairByte (pair : Char × Char) : UInt8 := UInt8.ofNat (16 * digitValue pair.1 + digitValue pair.2)

def flattenPairs (pairs : List (Char × Char)) : List Char := pairs.flatMap fun pair => [pair.1, pair.2]

/-- An even number of digits with the values of the pairs in order. -/
def HexDigits (text : List Char) (bytes : List UInt8) : Prop :=
  ∃ pairs : List (Char × Char), (∀ pair ∈ pairs, HexDigit pair.1 ∧ HexDigit pair.2) ∧
    text = flattenPairs pairs ∧ bytes = pairs.map pairByte

/-- Digits with at most one prefix. -/
def HexText (text : List Char) (bytes : List UInt8) : Prop :=
  HexDigits text bytes ∨ ∃ digits, text = '0' :: 'x' :: digits ∧ HexDigits digits bytes

/-- A pair that the integer parser takes has a digit or a plus sign in front of a digit. -/
def AcceptedPair (pair : Char × Char) : Prop := (HexDigit pair.1 ∨ pair.1 = '+') ∧ HexDigit pair.2

def AcceptedPairs (text : List Char) (pairs : List (Char × Char)) : Prop :=
  (∀ pair ∈ pairs, AcceptedPair pair) ∧ text = flattenPairs pairs

/-- Behind accepted pairs, the next two bytes end inside a character. -/
def SplitsCharacter : List Char → Prop
  | [] => False
  | [c] => 3 ≤ c.utf8Size
  | c :: d :: rest => 3 ≤ c.utf8Size ∨ (c.utf8Size = 1 ∧ 2 ≤ d.utf8Size) ∨ AcceptedPair (c, d) ∧ SplitsCharacter rest

end Grammar

section Digits

theorem toDigit16_eq_none_iff (c : Char) : toDigit16 c = none ↔ ¬HexDigit c := by
  unfold toDigit16 HexDigit
  split_ifs <;> simp_all

theorem toDigit16_of_hexDigit {c : Char} (digit : HexDigit c) : toDigit16 c = some (digitValue c) := by
  cases parsed : toDigit16 c with
  | none => exact absurd digit ((toDigit16_eq_none_iff c).mp parsed)
  | some value => rw [digitValue, parsed, Option.getD_some]

theorem digitValue_lt (c : Char) : digitValue c < 16 := by
  have bounds {low high : Char} (within : low ≤ c ∧ c ≤ high) : low.toNat ≤ c.toNat ∧ c.toNat ≤ high.toNat :=
    ⟨within.1, within.2⟩
  unfold digitValue toDigit16
  split_ifs with decimal lower upper
  · have := bounds decimal
    simp at this ⊢
    omega
  · have := bounds lower
    simp at this ⊢
    omega
  · have := bounds upper
    simp at this ⊢
    omega
  · simp

theorem hexDigit_utf8Size {c : Char} (digit : HexDigit c) : c.utf8Size = 1 := by
  have below {high : Char} (ascii : high.val ≤ 127) (bound : c ≤ high) : c.val ≤ 127 :=
    UInt32.le_trans bound ascii
  have bound : c.val ≤ 127 := by
    rcases digit with decimal | lower | upper
    · exact below (by decide) decimal.2
    · exact below (by decide) lower.2
    · exact below (by decide) upper.2
  exact Char.utf8Size_eq_one_iff.mpr bound

theorem plus_not_hexDigit : ¬HexDigit '+' := (toDigit16_eq_none_iff '+').mp (by decide)

theorem acceptedPair_utf8Size {c d : Char} (accepted : AcceptedPair (c, d)) : c.utf8Size = 1 ∧ d.utf8Size = 1 := by
  refine ⟨?_, hexDigit_utf8Size accepted.2⟩
  rcases accepted.1 with digit | plus
  · exact hexDigit_utf8Size digit
  · rw [show c = '+' from plus]
    decide

/-- The integer parser takes exactly the accepted pairs among two characters. -/
theorem fromStrRadix16_pair (c d : Char) :
    (AcceptedPair (c, d) → fromStrRadix16 [c, d] = some (pairByte (c, d))) ∧
      (¬AcceptedPair (c, d) → fromStrRadix16 [c, d] = none) := by
  have digits : fromStrRadix16 [c, d] = if c = '+' then parseDigits16 [d] 0 else parseDigits16 [c, d] 0 := by
    by_cases plus : c = '+'
    · rw [plus]
      rfl
    · rw [if_neg plus]
      unfold fromStrRadix16
      split <;> simp_all
  rw [digits]
  constructor
  · rintro ⟨first, second⟩
    have high := digitValue_lt c
    have low := digitValue_lt d
    have small : 16 * digitValue c + digitValue d < 256 := by omega
    have single : digitValue d < 256 := by omega
    have upper : digitValue c < 256 := by omega
    by_cases plus : c = '+'
    · have zero : digitValue c = 0 := by rw [plus]; decide
      rw [if_pos plus, pairByte, zero]
      simp [parseDigits16, toDigit16_of_hexDigit second, single]
    · rw [if_neg plus]
      have digit := first.resolve_right plus
      simp [parseDigits16, toDigit16_of_hexDigit second, toDigit16_of_hexDigit digit, small, pairByte,
        upper]
  · intro refused
    by_cases plus : c = '+'
    · have second : ¬HexDigit d := fun digit => refused ⟨.inr plus, digit⟩
      rw [if_pos plus, parseDigits16, (toDigit16_eq_none_iff d).mpr second]
    · rw [if_neg plus, parseDigits16]
      by_cases first : HexDigit c
      · have second : ¬HexDigit d := fun digit => refused ⟨.inl first, digit⟩
        simp [toDigit16_of_hexDigit first, parseDigits16, (toDigit16_eq_none_iff d).mpr second]
      · rw [(toDigit16_eq_none_iff c).mpr first]

/-- One character that is no ASCII character is no number. -/
theorem fromStrRadix16_single {c : Char} (wide : c.utf8Size ≠ 1) : fromStrRadix16 [c] = none := by
  have other : ¬HexDigit c := fun digit => wide (hexDigit_utf8Size digit)
  unfold fromStrRadix16
  split
  · rfl
  · rfl
  · rfl
  · simp_all
  · rw [parseDigits16, (toDigit16_eq_none_iff c).mpr other]

end Digits

section Slices

@[simp] theorem byteLength_nil : byteLength [] = 0 := rfl

@[simp] theorem byteLength_cons (c : Char) (s : List Char) : byteLength (c :: s) = c.utf8Size + byteLength s := by
  simp [byteLength]

@[simp] theorem byteLength_append (s t : List Char) : byteLength (s ++ t) = byteLength s + byteLength t := by
  simp [byteLength]

theorem byteLength_eq_zero {s : List Char} (empty : byteLength s = 0) : s = [] := by
  cases s with
  | nil => rfl
  | cons c s =>
      have positive := c.utf8Size_pos
      rw [byteLength_cons] at empty
      omega

theorem dropBytes_append (before s : List Char) : dropBytes (before ++ s) (byteLength before) = some s := by
  induction before with
  | nil => cases s <;> rfl
  | cons c before inductionHypothesis =>
      obtain ⟨n, size⟩ := Nat.exists_eq_add_one.mpr c.utf8Size_pos
      have offset : byteLength (c :: before) = n + byteLength before + 1 := by
        rw [byteLength_cons, size]
        omega
      have fits : c.utf8Size ≤ n + byteLength before + 1 := by omega
      have rest : n + byteLength before + 1 - c.utf8Size = byteLength before := by omega
      rw [offset, List.cons_append, dropBytes, if_pos fits, rest, inductionHypothesis]

/-- The pair behind a prefix is a slice in front of the rest. -/
theorem hexPair_slice (before s : List Char) (byte : UInt8) :
    hexPair (before ++ s) (byteLength before) = .ok byte ↔
      (takeBytes s 2).bind fromStrRadix16 = some byte := by
  rw [hexPair, sliceStr, dropBytes_append, Option.bind_some, Nat.add_sub_cancel_left]
  cases takeBytes s 2 with
  | none => simp
  | some slice =>
      rw [ok_bind, Option.bind_some]
      cases fromStrRadix16 slice with
      | none => simp [throw, throwThe, MonadExceptOf.throw]
      | some parsed => simp [pure, Except.pure]

/-- A pair panics exactly where the next two bytes end inside a character. -/
theorem hexPair_eq_panic_iff (before s : List Char) :
    hexPair (before ++ s) (byteLength before) = .error .panic ↔ takeBytes s 2 = none := by
  rw [hexPair, sliceStr, dropBytes_append, Option.bind_some, Nat.add_sub_cancel_left]
  cases takeBytes s 2 with
  | none => simp
  | some slice =>
      rw [ok_bind]
      cases fromStrRadix16 slice with
      | none => simp [throw, throwThe, MonadExceptOf.throw]
      | some parsed => simp [pure, Except.pure]

theorem takeBytes_two_single {c : Char} : takeBytes [c] 2 = if c.utf8Size = 2 then some [c] else none := by
  rcases c.utf8Size_eq with size | size | size | size <;> simp [takeBytes, size]

theorem takeBytes_two_cons (c d : Char) (s : List Char) : takeBytes (c :: d :: s) 2 =
    if c.utf8Size = 2 then some [c]
    else if c.utf8Size = 1 ∧ d.utf8Size = 1 then some [c, d]
    else none := by
  have next := d.utf8Size_pos
  rcases c.utf8Size_eq with size | size | size | size
  · by_cases single : d.utf8Size = 1
    · cases s <;> simp [takeBytes, size, single]
    · have wide : ¬d.utf8Size ≤ 1 := by omega
      simp [takeBytes, size, single, wide]
  · simp [takeBytes, size]
  · simp [takeBytes, size]
  · simp [takeBytes, size]

end Slices

section Loop

/-- A pair is read exactly where an accepted pair is in front. -/
theorem hexPair_eq_ok_iff {before s : List Char} {byte : UInt8} :
    hexPair (before ++ s) (byteLength before) = .ok byte ↔
      ∃ c d rest, s = c :: d :: rest ∧ AcceptedPair (c, d) ∧ byte = pairByte (c, d) := by
  rw [hexPair_slice]
  match s with
  | [] => simp [takeBytes]
  | [c] =>
      rw [takeBytes_two_single]
      split_ifs with size
      · rw [Option.bind_some, fromStrRadix16_single (by omega)]
        simp
      · simp
  | c :: d :: rest =>
      rw [takeBytes_two_cons]
      by_cases accepted : AcceptedPair (c, d)
      · obtain ⟨first, second⟩ := acceptedPair_utf8Size accepted
        rw [if_neg (by omega), if_pos ⟨first, second⟩, Option.bind_some, (fromStrRadix16_pair c d).1 accepted]
        constructor
        · intro read
          exact ⟨c, d, rest, rfl, accepted, (Option.some.inj read).symm⟩
        · rintro ⟨c', d', rest', same, -, rfl⟩
          cases same
          rfl
      · refine iff_of_false ?_ ?_
        · split_ifs with wide narrow
          · rw [Option.bind_some, fromStrRadix16_single (by omega)]
            simp
          · rw [Option.bind_some, (fromStrRadix16_pair c d).2 accepted]
            simp
          · simp
        · rintro ⟨c', d', rest', same, accepted', -⟩
          cases same
          exact accepted accepted'

/-- Behind an accepted pair, the loop goes on at the next boundary. -/
theorem acceptedPair_step {n : ℕ} {s rest : List Char} {c d : Char} (before : List Char)
    (length : byteLength s = 2 * (n + 1)) (accepted : AcceptedPair (c, d)) (whole : s = c :: d :: rest) :
    byteLength rest = 2 * n ∧ byteLength before + 2 = byteLength (before ++ [c, d]) ∧
      before ++ s = (before ++ [c, d]) ++ rest := by
  obtain ⟨first, second⟩ := acceptedPair_utf8Size accepted
  rw [whole, byteLength_cons, byteLength_cons, first, second] at length
  exact ⟨by omega, by simp [first, second], by simp [whole]⟩

/-- The loop reads exactly the accepted pairs. -/
theorem hexPairs_eq_ok_iff {n : ℕ} {before s : List Char} {bytes : List UInt8} (length : byteLength s = 2 * n) :
    (List.range' (byteLength before) n 2).mapM (hexPair (before ++ s)) = .ok bytes ↔
      ∃ pairs, AcceptedPairs s pairs ∧ bytes = pairs.map pairByte := by
  induction n generalizing before s bytes with
  | zero =>
      rw [byteLength_eq_zero length, List.range'_zero, List.mapM_nil]
      constructor
      · intro done
        cases done
        exact ⟨[], ⟨by simp, rfl⟩, rfl⟩
      · rintro ⟨pairs, ⟨-, empty⟩, rfl⟩
        cases pairs with
        | nil => rfl
        | cons pair pairs => cases empty
  | succ n inductionHypothesis =>
      rw [List.range'_succ, List.mapM_cons]
      simp only [bind_eq_ok, hexPair_eq_ok_iff]
      constructor
      · rintro ⟨byte, ⟨c, d, rest, whole, accepted, rfl⟩, later, read, done⟩
        cases done
        obtain ⟨size, offset, text⟩ := acceptedPair_step before length accepted whole
        rw [offset, text, inductionHypothesis size] at read
        obtain ⟨pairs, ⟨all, flat⟩, rfl⟩ := read
        refine ⟨(c, d) :: pairs, ⟨List.forall_mem_cons.mpr ⟨accepted, all⟩, ?_⟩, rfl⟩
        rw [whole, flat]
        rfl
      · rintro ⟨pairs, ⟨all, flat⟩, rfl⟩
        cases pairs with
        | nil =>
            rw [show s = [] from flat, byteLength_nil] at length
            omega
        | cons pair pairs =>
            obtain ⟨accepted, others⟩ := List.forall_mem_cons.mp all
            have whole : s = pair.1 :: pair.2 :: flattenPairs pairs := flat
            obtain ⟨size, offset, text⟩ := acceptedPair_step before length accepted whole
            refine ⟨pairByte pair, ⟨pair.1, pair.2, _, whole, accepted, rfl⟩, pairs.map pairByte, ?_, rfl⟩
            rw [offset, text, inductionHypothesis size]
            exact ⟨pairs, ⟨others, rfl⟩, rfl⟩

/-- The loop panics exactly where a pair ends inside a character. -/
theorem hexPairs_eq_panic_iff {n : ℕ} {before s : List Char} (length : byteLength s = 2 * n) :
    (List.range' (byteLength before) n 2).mapM (hexPair (before ++ s)) = .error .panic ↔ SplitsCharacter s := by
  induction n generalizing before s with
  | zero =>
      rw [byteLength_eq_zero length, List.range'_zero, List.mapM_nil]
      simp [pure, Except.pure, SplitsCharacter]
  | succ n inductionHypothesis =>
      rw [List.range'_succ, List.mapM_cons, bind_eq_panic, hexPair_eq_panic_iff]
      simp only [bind_eq_panic, hexPair_eq_ok_iff]
      match s with
      | [] => simp at length
      | [c] =>
          rw [takeBytes_two_single, SplitsCharacter]
          rw [byteLength_cons, byteLength_nil] at length
          have wide : (if c.utf8Size = 2 then some [c] else none) = none ↔ 3 ≤ c.utf8Size := by
            split_ifs <;> simp <;> omega
          rw [wide, or_iff_left]
          rintro ⟨byte, ⟨c', d, rest, same, -⟩, -⟩
          cases same
      | c :: d :: rest =>
          have first := c.utf8Size_pos
          have second := d.utf8Size_pos
          have split : takeBytes (c :: d :: rest) 2 = none ↔
              3 ≤ c.utf8Size ∨ (c.utf8Size = 1 ∧ 2 ≤ d.utf8Size) := by
            rw [takeBytes_two_cons]
            split_ifs <;> simp <;> omega
          rw [split, SplitsCharacter, or_assoc]
          refine or_congr_right (or_congr_right ?_)
          constructor
          · rintro ⟨byte, ⟨c', d', rest', same, accepted, -⟩, later⟩
            cases same
            obtain ⟨size, offset, text⟩ := acceptedPair_step before length accepted rfl
            rw [offset, text, inductionHypothesis size, or_iff_left] at later
            · exact ⟨accepted, later⟩
            · rintro ⟨bytes, -, done⟩
              cases done
          · rintro ⟨accepted, splits⟩
            obtain ⟨size, offset, text⟩ := acceptedPair_step before length accepted rfl
            refine ⟨pairByte (c, d), ⟨c, d, rest, rfl, accepted, rfl⟩, .inl ?_⟩
            rw [offset, text, inductionHypothesis size]
            exact splits

theorem acceptedPairs_byteLength {s : List Char} {pairs : List (Char × Char)} (accepted : AcceptedPairs s pairs) :
    byteLength s = 2 * pairs.length := by
  obtain ⟨all, rfl⟩ := accepted
  induction pairs with
  | nil => rfl
  | cons pair pairs inductionHypothesis =>
      obtain ⟨first, others⟩ := List.forall_mem_cons.mp all
      obtain ⟨left, right⟩ := acceptedPair_utf8Size first
      have flat : flattenPairs (pair :: pairs) = pair.1 :: pair.2 :: flattenPairs pairs := rfl
      rw [flat, byteLength_cons, byteLength_cons, left, right, inductionHypothesis others, List.length_cons]
      omega

theorem hexDecode_of_odd {s : List Char} (odd : byteLength ((stripPrefix s).getD s) % 2 ≠ 0) :
    hexDecode s = .error (.error (.deserializationError "Odd hex length")) := by
  unfold hexDecode
  dsimp only
  rw [if_pos odd]
  rfl

theorem hexDecode_of_even {s : List Char} (even : byteLength ((stripPrefix s).getD s) % 2 = 0) :
    hexDecode s = (List.range' 0 (byteLength ((stripPrefix s).getD s) / 2) 2).mapM
      (hexPair ((stripPrefix s).getD s)) := by
  unfold hexDecode
  dsimp only
  rw [if_neg (not_not.mpr even)]

/-- Behind the stripped prefix, the decoder reads exactly the accepted pairs. -/
theorem hexDecode_eq_ok_iff {s : List Char} {bytes : List UInt8} :
    hexDecode s = .ok bytes ↔
      ∃ pairs, AcceptedPairs ((stripPrefix s).getD s) pairs ∧ bytes = pairs.map pairByte := by
  by_cases even : byteLength ((stripPrefix s).getD s) % 2 = 0
  · rw [hexDecode_of_even even]
    exact @hexPairs_eq_ok_iff _ [] _ bytes (Nat.mul_div_cancel' (Nat.dvd_of_mod_eq_zero even)).symm
  · rw [hexDecode_of_odd even]
    refine iff_of_false (by simp) ?_
    rintro ⟨pairs, accepted, -⟩
    have length := acceptedPairs_byteLength accepted
    omega

theorem hexDecode_eq_panic_iff {s : List Char} :
    hexDecode s = .error .panic ↔
      byteLength ((stripPrefix s).getD s) % 2 = 0 ∧ SplitsCharacter ((stripPrefix s).getD s) := by
  by_cases even : byteLength ((stripPrefix s).getD s) % 2 = 0
  · rw [hexDecode_of_even even, and_iff_right even]
    exact @hexPairs_eq_panic_iff _ [] _ (Nat.mul_div_cancel' (Nat.dvd_of_mod_eq_zero even)).symm
  · rw [hexDecode_of_odd even]
    simp [even]

end Loop

section Exact

theorem flattenPairs_inj {pairs pairs' : List (Char × Char)} (same : flattenPairs pairs = flattenPairs pairs') :
    pairs = pairs' := by
  induction pairs generalizing pairs' with
  | nil =>
      cases pairs' with
      | nil => rfl
      | cons pair' pairs' => cases same
  | cons pair pairs inductionHypothesis =>
      cases pairs' with
      | nil => cases same
      | cons pair' pairs' =>
        have parts : pair.1 :: pair.2 :: flattenPairs pairs = pair'.1 :: pair'.2 :: flattenPairs pairs' := same
        obtain ⟨first, others⟩ := List.cons.inj parts
        obtain ⟨second, rest⟩ := List.cons.inj others
        rw [Prod.ext first second, inductionHypothesis rest]

/-- Pairs of digits are the accepted pairs without a sign. -/
theorem hexDigits_iff {text : List Char} {bytes : List UInt8} :
    HexDigits text bytes ↔
      ∃ pairs, AcceptedPairs text pairs ∧ (∀ pair ∈ pairs, pair.1 ≠ '+') ∧ bytes = pairs.map pairByte := by
  constructor
  · rintro ⟨pairs, digits, flat, values⟩
    refine ⟨pairs, ⟨fun pair member => ⟨.inl (digits pair member).1, (digits pair member).2⟩, flat⟩, ?_, values⟩
    intro pair member plus
    have digit := (digits pair member).1
    rw [plus] at digit
    exact plus_not_hexDigit digit
  · rintro ⟨pairs, ⟨all, flat⟩, unsigned, values⟩
    exact ⟨pairs, fun pair member => ⟨(all pair member).1.resolve_right (unsigned pair member), (all pair member).2⟩,
      flat, values⟩

theorem stripPrefix_eq_some_iff {text rest : List Char} :
    stripPrefix text = some rest ↔ text = '0' :: 'x' :: rest := by
  unfold stripPrefix
  split
  · simp
  · simp_all

/-- Digits do not start with the prefix. -/
theorem hexDigits_unprefixed {text : List Char} {bytes : List UInt8} (digits : HexDigits text bytes) :
    stripPrefix text = none := by
  cases stripped : stripPrefix text with
  | none => rfl
  | some rest =>
      obtain ⟨pairs, all, flat, -⟩ := digits
      rw [stripPrefix_eq_some_iff.mp stripped] at flat
      cases pairs with
      | nil => cases flat
      | cons pair pairs =>
        have second : 'x' = pair.2 := by
          have parts : '0' :: 'x' :: rest = pair.1 :: pair.2 :: flattenPairs pairs := flat
          exact (List.cons.inj (List.cons.inj parts).2).1
        have digit := (all pair (List.mem_cons_self ..)).2
        rw [← second] at digit
        exact absurd digit ((toDigit16_eq_none_iff 'x').mp (by decide))

theorem hexText_iff {text : List Char} {bytes : List UInt8} :
    HexText text bytes ↔ HexDigits ((stripPrefix text).getD text) bytes := by
  constructor
  · rintro (digits | ⟨rest, rfl, digits⟩)
    · rwa [hexDigits_unprefixed digits]
    · exact digits
  · intro digits
    cases stripped : stripPrefix text with
    | none =>
        rw [stripped] at digits
        exact .inl digits
    | some rest =>
        rw [stripped] at digits
        exact .inr ⟨rest, stripPrefix_eq_some_iff.mp stripped, digits⟩

/-- No pair ends inside a character before the first bad pair, and no accepted pairs hold a sign. -/
structure ReadsPlain (text : List Char) : Prop where
  boundaries : byteLength text % 2 = 0 → ¬SplitsCharacter text
  unsigned : ∀ pairs, AcceptedPairs text pairs → ∀ pair ∈ pairs, pair.1 ≠ '+'

/-- The decoder returns the values of digits with at most one prefix, and an error for every other string. -/
structure HexDecodes (s : String) : Prop where
  grammar : ∀ bytes, decodeSp1ProofHex s = .ok bytes ↔ HexText s.toList bytes
  total : decodeSp1ProofHex s ≠ .error .panic

/-- A prefixed input is the number of the digits behind one prefix, or an error. -/
def PublicInputDecodes (fromStr : List Char → Option Fr377) (s : String) : Prop :=
  ∀ text, stripPrefix (trim s.toList) = some text →
    (∀ x, decodeSp1PublicInput fromStr s = .ok x ↔ ∃ bytes, HexDigits text bytes ∧ x = (beValue bytes : Fr377)) ∧
      decodeSp1PublicInput fromStr s ≠ .error .panic

/-- Behind the first prefix, the pairs are plain, and a second prefix comes with a bad pair. -/
def ReadsOnePrefix (s : String) : Prop :=
  ∀ text, stripPrefix (trim s.toList) = some text →
    ReadsPlain ((stripPrefix text).getD text) ∧
      ∀ rest, stripPrefix text = some rest → ¬∃ pairs, AcceptedPairs rest pairs

/-- Digits are read from a text with accepted pairs exactly where none of them holds a sign. -/
theorem ReadsPlain.hexDigits_iff {text : List Char} (plain : ReadsPlain text) {bytes : List UInt8} :
    (∃ pairs, AcceptedPairs text pairs ∧ bytes = pairs.map pairByte) ↔ HexDigits text bytes := by
  rw [Sp1Bridge.hexDigits_iff]
  exact exists_congr fun pairs =>
    ⟨fun read => ⟨read.1, plain.unsigned pairs read.1, read.2⟩, fun digits => ⟨digits.1, digits.2.2⟩⟩

theorem HexDigits.unsigned {text : List Char} {bytes : List UInt8} (digits : HexDigits text bytes)
    {pairs : List (Char × Char)} (accepted : AcceptedPairs text pairs) : ∀ pair ∈ pairs, pair.1 ≠ '+' := by
  obtain ⟨pairs', accepted', unsigned, -⟩ := hexDigits_iff.mp digits
  rwa [flattenPairs_inj (accepted.2.symm.trans accepted'.2)]

theorem hexDecodes_iff (s : String) : HexDecodes s ↔ ReadsPlain ((stripPrefix s.toList).getD s.toList) := by
  constructor
  · intro decodes
    refine ⟨fun even splits => decodes.total (hexDecode_eq_panic_iff.mpr ⟨even, splits⟩), ?_⟩
    intro pairs accepted
    have digits := hexText_iff.mp ((decodes.grammar _).mp (hexDecode_eq_ok_iff.mpr ⟨pairs, accepted, rfl⟩))
    exact digits.unsigned accepted
  · intro plain
    refine ⟨fun bytes => ?_, fun panics => ?_⟩
    · rw [hexText_iff, ← plain.hexDigits_iff]
      exact hexDecode_eq_ok_iff
    · obtain ⟨even, splits⟩ := hexDecode_eq_panic_iff.mp panics
      exact plain.boundaries even splits

section PublicInput

variable {fromStr : List Char → Option Fr377} {s : String} {text : List Char}

theorem decodeSp1PublicInput_prefixed (stripped : stripPrefix (trim s.toList) = some text) :
    decodeSp1PublicInput fromStr s = (do
      let bytes ← hexDecode text
      return (beValue bytes : Fr377)) := by
  unfold decodeSp1PublicInput
  dsimp only
  rw [stripped]

theorem decodeSp1PublicInput_eq_ok_iff (stripped : stripPrefix (trim s.toList) = some text) {x : Fr377} :
    decodeSp1PublicInput fromStr s = .ok x ↔ ∃ bytes, hexDecode text = .ok bytes ∧ x = (beValue bytes : Fr377) := by
  rw [decodeSp1PublicInput_prefixed stripped, bind_eq_ok]
  refine exists_congr fun bytes => and_congr_right fun _ => ?_
  constructor
  · intro done
    cases done
    rfl
  · rintro rfl
    rfl

theorem decodeSp1PublicInput_eq_panic_iff (stripped : stripPrefix (trim s.toList) = some text) :
    decodeSp1PublicInput fromStr s = .error .panic ↔ hexDecode text = .error .panic := by
  rw [decodeSp1PublicInput_prefixed stripped, bind_eq_panic, or_iff_left]
  rintro ⟨bytes, -, done⟩
  cases done

theorem publicInputDecodes_iff (fromStr : List Char → Option Fr377) (s : String) :
    PublicInputDecodes fromStr s ↔ ReadsOnePrefix s := by
  refine forall_congr' fun text => forall_congr' fun stripped => ?_
  rw [Ne, decodeSp1PublicInput_eq_panic_iff stripped, hexDecode_eq_panic_iff]
  simp only [decodeSp1PublicInput_eq_ok_iff stripped, hexDecode_eq_ok_iff]
  constructor
  · rintro ⟨grammar, total⟩
    have digits {pairs : List (Char × Char)} (accepted : AcceptedPairs ((stripPrefix text).getD text) pairs) :
        ∃ bytes, HexDigits text bytes := by
      obtain ⟨bytes, digits, -⟩ := (grammar _).mp ⟨_, ⟨pairs, accepted, rfl⟩, rfl⟩
      exact ⟨bytes, digits⟩
    refine ⟨⟨fun even splits => total ⟨even, splits⟩, ?_⟩, ?_⟩
    · intro pairs accepted
      obtain ⟨bytes, digits⟩ := digits accepted
      rw [hexDigits_unprefixed digits] at accepted
      exact digits.unsigned accepted
    · rintro rest second ⟨pairs, accepted⟩
      rw [second] at digits
      obtain ⟨bytes, digits⟩ := digits accepted
      rw [hexDigits_unprefixed digits] at second
      cases second
  · rintro ⟨plain, single⟩
    refine ⟨fun x => exists_congr fun bytes => and_congr_left fun _ => ?_, ?_⟩
    · cases second : stripPrefix text with
      | none =>
          rw [second] at plain
          exact plain.hexDigits_iff
      | some rest =>
          refine iff_of_false ?_ fun digits => ?_
          · rintro ⟨pairs, accepted, -⟩
            exact single rest second ⟨pairs, accepted⟩
          · rw [hexDigits_unprefixed digits] at second
            cases second
    · rintro ⟨even, splits⟩
      exact plain.boundaries even splits

/-- The two decoders meet the grammar exactly on the strings whose pairs are plain and, for an input, behind one
prefix. -/
theorem hexDecoders_iff (fromStr : List Char → Option Fr377) (s : String) :
    (HexDecodes s ↔ ReadsPlain ((stripPrefix s.toList).getD s.toList)) ∧
      (PublicInputDecodes fromStr s ↔ ReadsOnePrefix s) :=
  ⟨hexDecodes_iff s, publicInputDecodes_iff fromStr s⟩

/-- A sign is taken for a digit, an offset inside a character panics, and two prefixes are taken for one. -/
theorem hexDecoders_beyond :
    decodeSp1ProofHex "+f" = .ok [15] ∧ ¬HexDecodes "+f" ∧
      decodeSp1ProofHex "aéb" = .error .panic ∧ ¬HexDecodes "aéb" ∧
      decodeSp1PublicInput (fun _ => none) "0x0x01" = .ok 1 ∧ ¬PublicInputDecodes (fun _ => none) "0x0x01" := by
  have signed : decodeSp1ProofHex "+f" = .ok [15] := by rfl
  have split : decodeSp1ProofHex "aéb" = .error .panic := by rfl
  have twice : decodeSp1PublicInput (fun _ => none) "0x0x01" = .ok 1 := by rfl
  have digits (c : Char) (value : ℕ) (digit : toDigit16 c = some value) : HexDigit c := by
    by_contra other
    rw [(toDigit16_eq_none_iff c).mpr other] at digit
    cases digit
  refine ⟨signed, ?_, split, fun decodes => decodes.total split, twice, ?_⟩
  · rw [hexDecodes_iff]
    intro plain
    have accepted : AcceptedPairs ['+', 'f'] [('+', 'f')] :=
      ⟨List.forall_mem_singleton.mpr ⟨.inr rfl, digits 'f' 15 rfl⟩, rfl⟩
    exact plain.unsigned _ accepted _ (List.mem_singleton_self _) rfl
  · rw [publicInputDecodes_iff]
    intro single
    have accepted : AcceptedPairs ['0', '1'] [('0', '1')] :=
      ⟨List.forall_mem_singleton.mpr ⟨.inl (digits '0' 0 rfl), digits '1' 1 rfl⟩, rfl⟩
    exact (single ['0', 'x', '0', '1'] rfl).2 ['0', '1'] rfl ⟨_, accepted⟩

end PublicInput

end Exact

end Pvugc.Sp1Bridge
