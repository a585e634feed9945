import ContentTyping.Proofs.Text.Digits
import ContentTyping.Scan.Checksum

/-!
# Checksums bit by bit

The cyclic redundancy check is defined on a row of bits: a register takes in one bit after the other. Taking in a
byte by the table comes to the same as taking in its eight bits, and a checksum can be continued where it ended.
So the checksum of a file does not depend on the pieces in which it is read.
-/

namespace ContentTyping.Checksum

/-! ## The check of a row of bits -/

/-- Take in one bit: the lowest bit leaves the register, and where it differs from the one that is taken in, the
polynomial is subtracted. -/
def takeBit (register : BitVec 32) (bit : Bool) : BitVec 32 :=
  if register.getLsbD 0 ^^ bit then (register >>> 1) ^^^ 0xEDB88320#32 else register >>> 1

/-- So many of the lowest bits of a word, the lowest first. -/
def lowBits {width : Nat} (count : Nat) (word : BitVec width) : List Bool :=
  (List.range count).map word.getLsbD

/-- The check of some bytes: their bits, the lowest bit of a byte first, are taken into a register of ones, and the
complement of it is the check. -/
def check (bytes : List UInt8) : BitVec 32 :=
  ~~~((bytes.flatMap fun byte => lowBits 8 byte.toBitVec).foldl takeBit (BitVec.allOnes 32))

/-! ## Bits of a byte -/

theorem lowBits_congr {first second : Nat} {count : Nat} {word : BitVec first} {other : BitVec second}
    (same : ∀ i < count, word.getLsbD i = other.getLsbD i) :
    lowBits count word = lowBits count other := by
  refine List.map_congr_left fun i member => ?_
  exact same i (List.mem_range.1 member)

theorem lowest_bit (register : UInt32) :
    register &&& 1 = 1 ↔ register.toBitVec.getLsbD 0 = true := by
  have bit : (register &&& 1).toBitVec =
      (BitVec.ofBool (register.toBitVec.getLsbD 0)).setWidth 32 := by
    rw [UInt32.toBitVec_and]
    exact BitVec.and_one_eq_setWidth_ofBool_getLsbD
  rw [← UInt32.toBitVec_inj, bit]
  cases register.toBitVec.getLsbD 0 <;> decide

theorem toBitVec_shiftBit (register : UInt32) :
    (shiftBit register).toBitVec = takeBit register.toBitVec false := by
  rw [shiftBit, takeBit, Bool.xor_false]
  by_cases bit : register.toBitVec.getLsbD 0 = true
  · rw [if_pos bit, if_pos ((lowest_bit register).2 bit)]
    rfl
  · rw [if_neg bit, if_neg fun isOne => bit ((lowest_bit register).1 isOne)]
    rfl

/-- A word that was added to the register gives its lowest bit now and keeps the others for later. -/
theorem takeBit_xor (register word : BitVec 32) :
    takeBit (register ^^^ word) false = takeBit register (word.getLsbD 0) ^^^ (word >>> 1) := by
  rw [takeBit, takeBit, BitVec.getLsbD_xor, Bool.xor_false, BitVec.ushiftRight_xor_distrib]
  split
  · ac_rfl
  · rfl

theorem toBitVec_repeat_shiftBit (count : Nat) (register : UInt32) :
    (Nat.repeat shiftBit count register).toBitVec =
      Nat.repeat (takeBit · false) count register.toBitVec := by
  induction count with
  | zero =>
      rfl
  | succ count inductionHypothesis =>
      rw [Nat.repeat, toBitVec_shiftBit, inductionHypothesis, Nat.repeat]

/-- Shifting a sum takes in the lowest bits of one word, and what is left of the word is still added. -/
theorem repeat_takeBit_xor (count : Nat) (register word : BitVec 32) :
    Nat.repeat (takeBit · false) count (register ^^^ word) =
      (lowBits count word).foldl takeBit register ^^^ (word >>> count) := by
  induction count with
  | zero =>
      simp [Nat.repeat, lowBits]
  | succ count inductionHypothesis =>
      have next : (word >>> count).getLsbD 0 = word.getLsbD count := by
        rw [BitVec.getLsbD_ushiftRight, Nat.add_zero]
      rw [Nat.repeat, inductionHypothesis, takeBit_xor, next, ← BitVec.shiftRight_add, lowBits, lowBits,
        List.range_succ, List.map_append, List.foldl_append]
      rfl

theorem shiftByte_xor (register word : UInt32) :
    (shiftByte (register ^^^ word)).toBitVec =
      (lowBits 8 word.toBitVec).foldl takeBit register.toBitVec ^^^ (word.toBitVec >>> 8) := by
  rw [shiftByte, toBitVec_repeat_shiftBit, UInt32.toBitVec_xor, repeat_takeBit_xor]

theorem shiftByte_eq (word : UInt32) :
    (shiftByte word).toBitVec =
      (lowBits 8 word.toBitVec).foldl takeBit 0#32 ^^^ (word.toBitVec >>> 8) := by
  have shifted := shiftByte_xor 0 word
  rw [UInt32.zero_xor] at shifted
  exact shifted

/-! ## The table -/

theorem getD_ofFn {α : Type} {count : Nat} (entry : Fin count → α) (i : Fin count) (other : α) :
    (Vector.ofFn entry).toArray.getD i other = entry i := by
  simp [Array.getD_eq_getD_getElem?]

theorem table_getD {index : UInt32} (small : index.toNat < 256) :
    table.toArray.getD index.toNat 0 = shiftByte index := by
  rw [table, getD_ofFn _ ⟨index.toNat, small⟩]
  simp

theorem toBitVec_shiftRight_eight (word : UInt32) : (word >>> 8).toBitVec = word.toBitVec >>> 8 :=
  rfl

/-- The table says what becomes of the lowest byte; the other bytes move down. -/
theorem table_getD_xor (register : UInt32) :
    table.toArray.getD (register &&& 0xFF).toNat 0 ^^^ (register >>> 8) = shiftByte register := by
  have small : (register &&& 0xFF).toNat < 256 := by
    rw [UInt32.toNat_and]
    exact Nat.lt_succ_of_le Nat.and_le_right
  have sameBits : lowBits 8 (register &&& 0xFF).toBitVec = lowBits 8 register.toBitVec := by
    have ones : ∀ i < 8, (0xFF#32).getLsbD i = true := by decide
    refine lowBits_congr fun i low => ?_
    rw [UInt32.toBitVec_and, BitVec.getLsbD_and]
    exact (congrArg _ (ones i low)).trans (Bool.and_true _)
  have nothingAbove : (register &&& 0xFF).toBitVec >>> 8 = 0#32 := by
    rw [UInt32.toBitVec_and, BitVec.ushiftRight_and_distrib]
    exact BitVec.and_zero
  rw [table_getD small, ← UInt32.toBitVec_inj, UInt32.toBitVec_xor, shiftByte_eq, shiftByte_eq, sameBits,
    nothingAbove, BitVec.xor_zero, toBitVec_shiftRight_eight]

/-! ## Bytes -/

/-- Taking in a byte is taking in its bits. -/
theorem toBitVec_feed (register : UInt32) (byte : UInt8) :
    (feed register byte).toBitVec = (lowBits 8 byte.toBitVec).foldl takeBit register.toBitVec := by
  have word : byte.toUInt32.toBitVec = byte.toBitVec.setWidth 32 := UInt8.toBitVec_toUInt32 byte
  have sameBits : lowBits 8 byte.toUInt32.toBitVec = lowBits 8 byte.toBitVec := by
    refine lowBits_congr fun i low => ?_
    rw [word, BitVec.getLsbD_setWidth, decide_eq_true (by omega), Bool.true_and]
  have nothingAbove : byte.toUInt32.toBitVec >>> 8 = 0#32 := by
    refine BitVec.eq_of_getLsbD_eq fun i _ => ?_
    rw [word, BitVec.getLsbD_ushiftRight, BitVec.getLsbD_setWidth, BitVec.getLsbD_of_ge _ _ (by omega),
      Bool.and_false, BitVec.getLsbD_zero]
  have shiftedAway : (register ^^^ byte.toUInt32) >>> 8 = register >>> 8 := by
    rw [← UInt32.toBitVec_inj, toBitVec_shiftRight_eight, toBitVec_shiftRight_eight, UInt32.toBitVec_xor,
      BitVec.ushiftRight_xor_distrib, nothingAbove, BitVec.xor_zero]
  rw [feed, ← shiftedAway, table_getD_xor, shiftByte_xor, sameBits, nothingAbove, BitVec.xor_zero]

theorem toBitVec_foldl_feed (bytes : List UInt8) (register : UInt32) :
    (bytes.foldl feed register).toBitVec =
      (bytes.flatMap fun byte => lowBits 8 byte.toBitVec).foldl takeBit register.toBitVec := by
  induction bytes generalizing register with
  | nil =>
      rfl
  | cons byte bytes inductionHypothesis =>
      rw [List.foldl_cons, inductionHypothesis, toBitVec_feed, List.flatMap_cons, List.foldl_append]

theorem toBitVec_update_zero (bytes : List UInt8) : (update 0 bytes).toBitVec = check bytes := by
  rw [update, UInt32.toBitVec_not, toBitVec_foldl_feed, check]
  rfl

/-! ## Pieces -/

theorem update_nil (sum : UInt32) : update sum [] = sum := by
  rw [update, List.foldl_nil, UInt32.not_not]

/-- A checksum can be continued. -/
theorem update_update (sum : UInt32) (first second : List UInt8) :
    update (update sum first) second = update sum (first ++ second) := by
  rw [update, update, update, UInt32.not_not, List.foldl_append]

theorem foldl_update (sum : UInt32) (pieces : List (List UInt8)) :
    pieces.foldl update sum = update sum pieces.flatten := by
  induction pieces generalizing sum with
  | nil =>
      exact (update_nil sum).symm
  | cons piece pieces inductionHypothesis =>
      rw [List.foldl_cons, inductionHypothesis, update_update, List.flatten_cons]

/-- The pieces of some bytes hold all of the bytes, if there may be enough pieces. -/
theorem flatten_split {length steps : Nat} {bytes : List UInt8}
    (enough : bytes.length ≤ steps * length) : (split length steps bytes).flatten = bytes := by
  induction steps generalizing bytes with
  | zero =>
      rw [Nat.zero_mul, Nat.le_zero, List.length_eq_zero_iff] at enough
      rw [enough]
      rfl
  | succ steps inductionHypothesis =>
      rw [split]
      split
      next isEmpty =>
          rw [List.isEmpty_iff.1 isEmpty]
          rfl
      next =>
          have further : (bytes.drop length).length ≤ steps * length := by
            rw [Nat.succ_mul] at enough
            rw [List.length_drop]
            omega
          rw [List.flatten_cons, inductionHypothesis further, List.take_append_drop]

theorem ofPieces_eq_update (pieces : List (List UInt8)) :
    ofPieces pieces = update 0 pieces.flatten :=
  foldl_update 0 pieces

theorem ofBytes_eq_display (bytes : List UInt8) : ofBytes bytes = display (update 0 bytes) := by
  have enough : bytes.length ≤ (bytes.length / pieceLength + 1) * pieceLength := by
    rw [pieceLength]
    omega
  rw [ofBytes, ofPieces_eq_update, flatten_split enough]

/-! ## What a file gets -/

/-- However bytes are divided into pieces, the checksum that takes in one piece after the other is the check of the
whole row of bytes, and it is the checksum of a file with these bytes. It is written with eight lowercase hexadecimal
digits, leading zeros included. -/
theorem ofPieces_is_check (pieces : List (List UInt8)) :
    (ofPieces pieces).toBitVec = check pieces.flatten ∧
      ofBytes pieces.flatten = display (ofPieces pieces) ∧
      (ofBytes pieces.flatten).toList =
        (Nat.toDigits 16 (check pieces.flatten).toNat).leftpad 8 '0' ∧
      (ofBytes pieces.flatten).length = 8 ∧
      ∀ c ∈ (ofBytes pieces.flatten).toList, Text.IsLowerHex c := by
  have isCheck : (ofPieces pieces).toBitVec = check pieces.flatten := by
    rw [ofPieces_eq_update, toBitVec_update_zero]
  have isWritten : ofBytes pieces.flatten = display (ofPieces pieces) := by
    rw [ofBytes_eq_display, ofPieces_eq_update]
  have digits : (ofBytes pieces.flatten).toList = Text.hexDigits 8 (ofPieces pieces).toNat := by
    rw [isWritten, display, String.toList_ofList]
  refine ⟨isCheck, isWritten, ?_, ?_, ?_⟩
  · rw [digits, Text.hexDigits_eq_leftpad (by decide) (ofPieces pieces).toNat_lt, ← isCheck]
    rfl
  · rw [← String.length_toList, digits, Text.length_hexDigits]
  · intro c member
    rw [digits] at member
    exact Text.isLowerHex_of_mem_hexDigits member

/-- A greeting in two pieces. -/
example : display (ofPieces [[104, 101, 108, 108, 111, 32], [119, 111, 114, 108, 100]]) = "0d4a1185" := by
  decide +kernel

end ContentTyping.Checksum
