import Pvugc.Algebra.Bytes

namespace Pvugc.Bitcoin
open Pvugc.Algebra

section Tokens

/-- An element of a script pushes data or is another operation. -/
inductive Token where
  | push (data : List UInt8)
  | op (opcode : UInt8)
  deriving DecidableEq, Repr

/-- The data of a push and the script behind it, unless the script ends before. -/
def takePush (size : ℕ) (rest : List UInt8) : Option (Token × List UInt8) :=
  if size ≤ rest.length then some (.push (rest.take size), rest.drop size) else none

/-- A push whose size stands in front of its data. -/
def takeSizedPush (width : ℕ) (rest : List UInt8) : Option (Token × List UInt8) :=
  if width ≤ rest.length then takePush (leValue (rest.take width)) (rest.drop width) else none

/-- The element in front of a script and the script behind it. -/
def nextToken : List UInt8 → Option (Token × List UInt8)
  | [] => none
  | opcode :: rest =>
      if opcode ≤ 0x4b then takePush opcode.toNat rest
      else if opcode = 0x4c then takeSizedPush 1 rest
      else if opcode = 0x4d then takeSizedPush 2 rest
      else if opcode = 0x4e then takeSizedPush 4 rest
      else if opcode = 0x4f then some (.push [0x81], rest)
      else if 0x51 ≤ opcode ∧ opcode ≤ 0x60 then some (.push [opcode - 0x50], rest)
      else some (.op opcode, rest)

/-- The elements of a script; each takes at least one byte, so its length is enough fuel. -/
def tokensWithin : ℕ → List UInt8 → Option (List Token)
  | _, [] => some []
  | 0, _ :: _ => none
  | fuel + 1, script =>
      (nextToken script).bind fun next => (tokensWithin fuel next.2).map (next.1 :: ·)

def tokenize (script : List UInt8) : Option (List Token) := tokensWithin script.length script

/-- The least number of bytes that an element takes. -/
def Token.size : Token → ℕ
  | push data => if data.length ≤ 1 then 1 else data.length + 1
  | op _ => 1

theorem Token.push_size_le (data : List UInt8) : (push data).size ≤ data.length + 1 := by
  rw [size]
  split_ifs <;> omega

theorem takePush_size {size : ℕ} {rest behind : List UInt8} {token : Token}
    (taken : takePush size rest = some (token, behind)) : token.size + behind.length ≤ rest.length + 1 := by
  unfold takePush at taken
  split at taken
  case isFalse => cases taken
  case isTrue fits =>
    cases taken
    have bound := Token.push_size_le (rest.take size)
    rw [List.length_take, Nat.min_eq_left fits] at bound
    rw [List.length_drop]
    omega

theorem takeSizedPush_size {width : ℕ} {rest behind : List UInt8} {token : Token}
    (taken : takeSizedPush width rest = some (token, behind)) :
    token.size + behind.length ≤ rest.length + 1 := by
  unfold takeSizedPush at taken
  split at taken
  case isFalse => cases taken
  case isTrue fits =>
    have bound := takePush_size taken
    rw [List.length_drop] at bound
    omega

theorem nextToken_size {script behind : List UInt8} {token : Token}
    (next : nextToken script = some (token, behind)) : token.size + behind.length ≤ script.length := by
  cases script with
  | nil => cases next
  | cons opcode rest =>
      rw [List.length_cons]
      rw [nextToken] at next
      split_ifs at next
      · exact takePush_size next
      · exact takeSizedPush_size next
      · exact takeSizedPush_size next
      · exact takeSizedPush_size next
      · cases next
        exact (Nat.add_comm 1 _).le
      · cases next
        exact (Nat.add_comm 1 _).le
      · cases next
        exact (Nat.add_comm 1 _).le

/-- A script has at least as many bytes as its elements take. -/
theorem tokensWithin_size {fuel : ℕ} {script : List UInt8} {tokens : List Token}
    (read : tokensWithin fuel script = some tokens) : (tokens.map Token.size).sum ≤ script.length := by
  induction fuel generalizing script tokens with
  | zero =>
      cases script with
      | nil =>
          cases read
          exact Nat.zero_le _
      | cons opcode rest => cases read
  | succ fuel inductionHypothesis =>
      cases script with
      | nil =>
          cases read
          exact Nat.zero_le _
      | cons opcode rest =>
          rw [tokensWithin, Option.bind_eq_some_iff] at read
          · obtain ⟨⟨token, behind⟩, next, later⟩ := read
            obtain ⟨rest, tail, rfl⟩ := Option.map_eq_some_iff.mp later
            have first := nextToken_size next
            have others := inductionHypothesis tail
            rw [List.map_cons, List.sum_cons]
            dsimp only at first others ⊢
            omega
          · simp

/-- A push that announces more data than the script holds ends the reading. -/
theorem tokenize_truncated {width : ℕ} {opcode : UInt8} {rest : List UInt8}
    (sized : nextToken (opcode :: rest) = takeSizedPush width rest)
    (truncated : rest.length < width + leValue (rest.take width)) : tokenize (opcode :: rest) = none := by
  have none : takeSizedPush width rest = none := by
    unfold takeSizedPush
    split
    case isFalse => rfl
    case isTrue fits =>
      rw [takePush, if_neg]
      rw [List.length_drop]
      omega
  rw [tokenize, List.length_cons, tokensWithin, sized, none]
  · rfl
  · simp

end Tokens

section Leaves

def opCheckSequenceVerify : UInt8 := 0xb2

def opDrop : UInt8 := 0x75

def opCheckSig : UInt8 := 0xac

structure TaprootScriptPath where
  pathName : String
  script : List UInt8
  version : UInt8

def TaprootScriptPath.computeSpend (pubkeyXonly : Vector UInt8 33) : TaprootScriptPath where
  pathName := "compute_spend"
  script := pubkeyXonly.toList ++ [opCheckSig]
  version := 0xc0

/-- The code's push of the number of blocks. -/
def pushBlocks (blocks : UInt32) : List UInt8 :=
  if blocks ≤ 0x4f then [0x50 + blocks.toUInt8]
  else if blocks ≤ 0xff then [0x4c, blocks.toUInt8]
  else if blocks ≤ 0xffff then [0x4d, (blocks &&& 0xff).toUInt8, ((blocks >>> 8) &&& 0xff).toUInt8]
  else 0x4e :: toLeBytes 4 blocks.toNat

def TaprootScriptPath.timeoutAbort (blocks : UInt32) (pubkeyXonly : Vector UInt8 33) : TaprootScriptPath where
  pathName := "timeout_abort"
  script := pushBlocks blocks ++ [opCheckSequenceVerify, opDrop] ++ pubkeyXonly.toList ++ [opCheckSig]
  version := 0xc0

/-- The minimal script number: little-endian bytes whose last one keeps its high bit for the sign. -/
def scriptNumber (n : ℕ) : List UInt8 :=
  let bytes := (Nat.digits 256 n).map UInt8.ofNat
  if 0x80 ≤ bytes.getLastD 0 then bytes ++ [0] else bytes

/-- The documented elements of the timeout leaf. -/
def timeoutAbortTokens (blocks : UInt32) (pubkeyXonly : Vector UInt8 33) : List Token :=
  [.push (scriptNumber blocks.toNat), .op opCheckSequenceVerify, .op opDrop, .push pubkeyXonly.toList, .op opCheckSig]

def computeSpendTokens (pubkeyXonly : Vector UInt8 33) : List Token := [.push pubkeyXonly.toList, .op opCheckSig]

theorem Token.size_pos (token : Token) : 0 < token.size := by
  cases token with
  | push data =>
      rw [size]
      split_ifs <;> omega
  | op opcode => exact Nat.one_pos

/-- The push of a key takes a length byte. -/
theorem Token.push_key_size (pubkeyXonly : Vector UInt8 33) : (push pubkeyXonly.toList).size = 34 := by
  rw [size, if_neg (by simp), Vector.length_toList]

/-- The script of the key and the check is one byte too short for a push of the key. -/
theorem tokenize_computeSpend_ne (pubkeyXonly : Vector UInt8 33) :
    tokenize (TaprootScriptPath.computeSpend pubkeyXonly).script ≠ some (computeSpendTokens pubkeyXonly) := by
  intro read
  have bound := tokensWithin_size read
  simp only [computeSpendTokens, TaprootScriptPath.computeSpend, List.map_cons, List.map_nil, List.sum_cons,
    List.sum_nil, Token.push_key_size, List.length_append, Vector.length_toList, List.length_singleton] at bound
  have last := Token.size_pos (.op opCheckSig)
  omega

/-- Above the small numbers, the code writes the number where the size of a push belongs. -/
theorem pushBlocks_large {blocks : UInt32} (large : ¬blocks ≤ 0x4f) :
    ∃ opcode header, pushBlocks blocks = opcode :: header ∧ leValue header = blocks.toNat ∧
      ∀ rest, nextToken (opcode :: rest) = takeSizedPush header.length rest := by
  unfold pushBlocks
  rw [if_neg large]
  split_ifs with one two
  · have byte : blocks.toUInt8.toNat = blocks.toNat := by
      have bound : blocks.toNat ≤ 0xff := one
      rw [UInt32.toNat_toUInt8]
      omega
    exact ⟨0x4c, _, rfl, by simpa [leValue] using byte, fun rest => rfl⟩
  · have low : (blocks &&& 0xff).toUInt8.toNat = blocks.toNat % 256 := by
      rw [UInt32.toNat_toUInt8, UInt32.toNat_and, show (0xff : UInt32).toNat = 2 ^ 8 - 1 from rfl,
        Nat.and_two_pow_sub_one_eq_mod]
      omega
    have high : ((blocks >>> 8) &&& 0xff).toUInt8.toNat = blocks.toNat / 256 := by
      have bound : blocks.toNat ≤ 0xffff := two
      rw [UInt32.toNat_toUInt8, UInt32.toNat_and, UInt32.toNat_shiftRight,
        show (0xff : UInt32).toNat = 2 ^ 8 - 1 from rfl, Nat.and_two_pow_sub_one_eq_mod,
        show (8 : UInt32).toNat % 32 = 8 from rfl, Nat.shiftRight_eq_div_pow]
      omega
    refine ⟨0x4d, _, rfl, ?_, fun rest => rfl⟩
    simp only [leValue, List.map_cons, List.map_nil, Nat.ofDigits_cons, Nat.ofDigits_nil, low, high]
    omega
  · exact ⟨0x4e, _, rfl, leValue_toLeBytes blocks.toNat_lt, fun rest => by rw [toLeBytes_length]; rfl⟩

/-- Such a push announces more data than the script holds. -/
theorem tokenize_timeoutAbort_large {blocks : UInt32} (pubkeyXonly : Vector UInt8 33) (large : ¬blocks ≤ 0x4f) :
    tokenize (TaprootScriptPath.timeoutAbort blocks pubkeyXonly).script = none := by
  obtain ⟨opcode, header, pushed, value, sized⟩ := pushBlocks_large large
  have many : 0x4f < blocks.toNat := Nat.lt_of_not_le large
  rw [TaprootScriptPath.timeoutAbort, pushed]
  simp only [List.cons_append, List.append_assoc]
  apply tokenize_truncated (sized _)
  rw [List.take_left, value]
  simp only [List.length_append, List.length_cons, List.length_nil, Vector.length_toList]
  omega

theorem tokenize_timeoutAbort_ne (blocks : UInt32) (pubkeyXonly : Vector UInt8 33) :
    tokenize (TaprootScriptPath.timeoutAbort blocks pubkeyXonly).script ≠
      some (timeoutAbortTokens blocks pubkeyXonly) := by
  by_cases small : blocks ≤ 0x4f
  · intro read
    have bound := tokensWithin_size read
    simp only [timeoutAbortTokens, TaprootScriptPath.timeoutAbort, pushBlocks, if_pos small, List.map_cons,
      List.map_nil, List.sum_cons, List.sum_nil, Token.push_key_size, List.length_append, Vector.length_toList,
      List.length_cons, List.length_nil] at bound
    have number := Token.size_pos (.push (scriptNumber blocks.toNat))
    have verify := Token.size_pos (.op opCheckSequenceVerify)
    have drop := Token.size_pos (.op opDrop)
    have last := Token.size_pos (.op opCheckSig)
    omega
  · rw [tokenize_timeoutAbort_large pubkeyXonly small]
    simp

/-- No block count and no key give a documented leaf script. -/
theorem leafScripts_never_documented (blocks : UInt32) (pubkeyXonly : Vector UInt8 33) :
    tokenize (TaprootScriptPath.timeoutAbort blocks pubkeyXonly).script ≠
        some (timeoutAbortTokens blocks pubkeyXonly) ∧
      tokenize (TaprootScriptPath.computeSpend pubkeyXonly).script ≠ some (computeSpendTokens pubkeyXonly) :=
  ⟨tokenize_timeoutAbort_ne blocks pubkeyXonly, tokenize_computeSpend_ne pubkeyXonly⟩

/-- The compressed generator. -/
def generatorKey : Vector UInt8 33 :=
  ⟨#[0x02, 0x79, 0xbe, 0x66, 0x7e, 0xf9, 0xdc, 0xbb, 0xac, 0x55, 0xa0, 0x62, 0x95, 0xce, 0x87, 0x0b, 0x07, 0x02, 0x9b,
    0xfc, 0xdb, 0x2d, 0xce, 0x28, 0xd9, 0x59, 0xf2, 0x81, 0x5b, 0x16, 0xf8, 0x17, 0x98], rfl⟩

/-- With the generator as key, the two leaves do not tokenize at all. -/
theorem leafScripts_generator :
    (tokenize (TaprootScriptPath.timeoutAbort 144 generatorKey).script = none ∧
        tokenize (TaprootScriptPath.timeoutAbort 144 generatorKey).script ≠
          some (timeoutAbortTokens 144 generatorKey)) ∧
      tokenize (TaprootScriptPath.computeSpend generatorKey).script = none ∧
        tokenize (TaprootScriptPath.computeSpend generatorKey).script ≠ some (computeSpendTokens generatorKey) := by
  have timeout : tokenize (TaprootScriptPath.timeoutAbort 144 generatorKey).script = none := by decide
  have compute : tokenize (TaprootScriptPath.computeSpend generatorKey).script = none := by decide
  rw [timeout, compute]
  simp

example : scriptNumber 144 = [0x90, 0] := by simp [scriptNumber]

end Leaves

end Pvugc.Bitcoin
