import DiskStaging.Deflate.Inflate
import DiskStaging.Proofs.WholeRuns

/-!
# Stored deflate data

Deflate data may hold their content as it is, in stored blocks of up to 65535 bytes.
Inflating such data gives their content back and leaves what comes behind them
(`Deflate.finish_stored`), whatever stands in the bits that fill up the first byte of each
block.

A number is read bit by bit. Where it takes up whole bytes, it is the one that these
spell, the least significant byte first (`Inflate.finish_number`).
-/

set_option autoImplicit false

namespace DiskStaging.Deflate

open Coding

namespace Inflate

variable {s : Inflate} {missing shift value : Nat} {field : Field}

/-! ## Numbers -/

/-- What is behind a number does not depend on how far it had been read. -/
theorem takeNumber_phase (s : Inflate) (phase : Phase) (value : Nat) (field : Field) :
    { s with phase }.takeNumber value field = s.takeNumber value field := by
  cases field with
  | repeatCount plan length least =>
    cases length <;>
      simp only [takeNumber, fail, nextLength, useCodes, nextSymbol]
  | orderLength literals distances left lengths =>
    cases left <;> simp only [takeNumber, useOrder, fail, nextLength, useCodes, nextSymbol]
  | _ => simp only [takeNumber, fail, nextSymbol, endBlock, copy]

theorem endBlock_phase (s : Inflate) (phase : Phase) : { s with phase }.endBlock = s.endBlock := by
  simp only [endBlock]

/-- The bits that are held without the first ones. -/
def spendAll (s : Inflate) (bits : Nat) : Inflate :=
  { s with hold := s.hold >>> bits, count := s.count - bits }

/-- The lowest bits of a number are its lower bits and the next one. -/
theorem mod_shift_succ (hold bits shift : Nat) :
    (hold % 1 <<< (bits + 1)) <<< shift =
      (hold % 1 <<< bits) <<< shift + (hold >>> bits % 2) <<< (shift + bits) := by
  simp only [Nat.shiftLeft_eq, Nat.shiftRight_eq_div_pow, Nat.one_mul]
  rw [Nat.mod_pow_succ, Nat.add_mul, Nat.pow_add]
  rw [Nat.mul_comm (2 ^ bits), Nat.mul_assoc (hold / 2 ^ bits % 2), Nat.mul_comm (2 ^ bits)]

/-- Reading the first held bits of a number. -/
theorem finish_bits (phase : s.phase = .number missing shift value field) (bits : Nat)
    (inside : bits < missing) (held : bits ≤ s.count) (input : Bytes) :
    finish (.of s) input =
      finish (.of { s.spendAll bits with
        phase := .number (missing - bits) (shift + bits) (value + (s.hold % 1 <<< bits) <<< shift)
          field }) input := by
  induction bits with
  | zero =>
    have same : { s.spendAll 0 with
        phase := .number (missing - 0) (shift + 0) (value + (s.hold % 1 <<< 0) <<< shift) field } =
          s := by
      obtain ⟨hold, count, window, last, literals, distances, current⟩ := s
      cases phase
      simp [spendAll, Nat.mod_one]
    rw [same]
  | succ bits ih =>
    rw [ih (by omega) (by omega)]
    refine finish_think input ?_
    change move _ = _
    have more : ¬ missing - bits ≤ 1 := by omega
    have some : ¬ s.count - bits = 0 := by omega
    simp only [move, spendAll, if_neg some, if_neg more, spend, Nat.shiftRight_succ,
      Nat.sub_sub, mod_shift_succ, Nat.add_assoc]

/-- Reading the held bits of a number that ends among them. -/
theorem finish_last_bits (phase : s.phase = .number missing shift value field)
    (some : 0 < missing) (held : missing ≤ s.count) (input : Bytes) :
    finish (.of s) input =
      finish (.of ((s.spendAll missing).takeNumber (value + (s.hold % 1 <<< missing) <<< shift)
        field)) input := by
  obtain ⟨bits, rfl⟩ := Nat.exists_eq_succ_of_ne_zero (Nat.ne_of_gt some)
  rw [finish_bits phase bits (Nat.lt_succ_self bits) (by omega)]
  refine finish_think input ?_
  change move _ = _
  have last : bits + 1 - bits ≤ 1 := by omega
  have some : ¬ s.count - bits = 0 := by omega
  simp only [move, spendAll, if_neg some, if_pos last, spend, Nat.shiftRight_succ,
    Nat.sub_sub, mod_shift_succ, Nat.add_assoc]
  exact congrArg Move.think (takeNumber_phase (s.spendAll (bits + 1)) _ _ field)

/-- The state between two bytes, with all bits of the last one spent. -/
def spent (s : Inflate) : Inflate := { s with hold := 0, count := 0 }

/-- All bits of a byte are spent. -/
theorem spendAll_load (s : Inflate) (byte : UInt8) : (s.load byte).spendAll 8 = s.spent := by
  have gone : byte.toNat >>> 8 = 0 := Nat.shiftRight_eq_zero _ _ byte.toNat_lt
  simp only [spendAll, load, gone, spent, Nat.sub_self]

/-- **A number of whole bytes is the one that these spell.** -/
theorem finish_number {bytes : Bytes} (some : bytes ≠ []) (empty : s.count = 0)
    (phase : s.phase = .number (8 * bytes.length) shift value field) (rest : Bytes) :
    finish (.of s) (bytes ++ rest) =
      finish (.of (s.spent.takeNumber (value + Bytes.little bytes <<< shift) field)) rest := by
  induction bytes generalizing s shift value with
  | nil => exact absurd rfl some
  | cons byte more ih =>
    have asks : Machine.move s = .ask s.load := by
      change move s = _
      simp only [move, phase, if_pos empty]
    have loaded : (s.load byte).phase = .number (8 * (more.length + 1)) shift value field := phase
    have all : (s.load byte).hold % 1 <<< 8 = byte.toNat := Nat.mod_eq_of_lt byte.toNat_lt
    rw [List.cons_append, finish_ask _ asks]
    cases more with
    | nil =>
      rw [finish_last_bits loaded (by decide) (Nat.le_refl 8)]
      change finish (.of (((s.load byte).spendAll 8).takeNumber
        (value + ((s.load byte).hold % 1 <<< 8) <<< shift) field)) rest = _
      rw [spendAll_load, all]
      rfl
    | cons next more =>
      rw [finish_bits loaded 8 (by simp) (Nat.le_refl 8), spendAll_load, all]
      have spelled : value + Bytes.little (byte :: next :: more) <<< shift =
          value + byte.toNat <<< shift + Bytes.little (next :: more) <<< (shift + 8) := by
        rw [Bytes.little, Nat.shiftLeft_eq, Nat.add_mul, ← Nat.shiftLeft_eq byte.toNat,
          Nat.shiftLeft_eq (Bytes.little _), Nat.pow_add, Nat.mul_comm 256, Nat.mul_assoc,
          Nat.mul_comm 256, Nat.add_assoc]
      rw [ih (List.cons_ne_nil _ _) rfl rfl, spelled]
      exact congrArg (fun next => finish (.of next) rest) (takeNumber_phase s.spent _ _ field)

/-! ## Stored content -/

/-- The state after some content was put. -/
def keepAll (s : Inflate) (content : Bytes) : Inflate :=
  { s with window := s.window.appendList content }

/-- The bytes of a stored block are put as they are. -/
theorem finish_content {content : Bytes} (some : content ≠ [])
    (phase : s.phase = .stored (content.length - 1)) (rest : Bytes) :
    finish (.of s) (content ++ rest) =
      (finish (.of (s.keepAll content).endBlock) rest).behind content := by
  induction content generalizing s with
  | nil => exact absurd rfl some
  | cons byte more ih =>
    have asks : Machine.move s =
        .ask fun byte => { s with phase := .storedByte byte (more.length + 1 - 1) } := by
      change move s = _
      simp only [move, phase, List.length_cons]
    rw [List.cons_append, finish_ask _ asks]
    cases more with
    | nil =>
      rw [finish_put _ (by rfl)]
      exact congrArg (fun next => (finish (.of next) rest).behind [byte])
        (endBlock_phase (s.keepAll [byte]) (.stored 0))
    | cons next more =>
      have ended := endBlock_phase (s.keepAll (byte :: next :: more)) (.stored more.length)
      rw [finish_put _ (by rfl), ih (List.cons_ne_nil _ _) rfl, Finished.behind_behind,
        List.singleton_append]
      exact congrArg (fun next => (finish (.of next) rest).behind _) ended

end Inflate

/-! ## Stored blocks -/

/-- The size of a stored block and its complement. -/
def sizeBytes (size : Nat) : Bytes := Bytes.ofLittle 2 size ++ Bytes.ofLittle 2 (65535 - size)

/-- A stored block: its content, and the number in the bits that fill up its first byte. -/
structure StoredBlock where
  content : Bytes
  filling : Fin 32
  fits : content.length < 65536

namespace StoredBlock

/-- The bytes of a stored block, which may be the last one. -/
def encode (block : StoredBlock) (last : Bool) : Bytes :=
  UInt8.ofNat (last.toNat + 8 * block.filling) ::
    (sizeBytes block.content.length ++ block.content)

/-- The bytes of some blocks, the last of which is the last one of all. -/
def encodeAll : List StoredBlock → StoredBlock → Bytes
  | [], last => last.encode true
  | block :: more, last => block.encode false ++ encodeAll more last

/-- What some blocks hold. -/
def contentOf : List StoredBlock → StoredBlock → Bytes
  | [], last => last.content
  | block :: more, last => block.content ++ contentOf more last

end StoredBlock

/-- Between two blocks, with no bits held. -/
structure Inflate.Ready (s : Inflate) : Prop where
  empty : s.count = 0
  phase : s.phase = .number 3 0 0 .head

theorem Inflate.ready_start : Inflate.start.Ready := ⟨rfl, rfl⟩

section Blocks

variable {s : Inflate}

/-- The first byte of a stored block tells that it is one, and whether it is the last. -/
theorem finish_head (ready : s.Ready) (last : Bool) (filling : Fin 32) (rest : Bytes) :
    finish (.of s) (UInt8.ofNat (last.toNat + 8 * filling) :: rest) =
      finish (.of { s.spent with last, phase := .number 32 0 0 .storedSize }) rest := by
  have asks : Machine.move s = .ask s.load := by
    change s.move = _
    simp only [Inflate.move, ready.phase, if_pos ready.empty]
  have byte : (UInt8.ofNat (last.toNat + 8 * filling)).toNat = last.toNat + 8 * filling := by
    have bit := Bool.toNat_le last
    exact UInt8.toNat_ofNat_of_lt' (by have := filling.isLt; change _ < 256; omega)
  have low : (last.toNat + 8 * filling.val) % 1 <<< 3 = last.toNat := by
    have bit := Bool.toNat_le last
    change _ % 8 = _
    omega
  rw [finish_ask _ asks]
  rw [Inflate.finish_last_bits (s := s.load _) ready.phase (by decide) (by simp [Inflate.load])]
  simp only [Inflate.load, Inflate.spendAll, byte, low]
  cases last <;> rfl

theorem little_sizeBytes {size : Nat} (fits : size < 65536) :
    Bytes.little (sizeBytes size) = size + 65536 * (65535 - size) := by
  have low := Bytes.little_ofLittle 2 size
  have high := Bytes.little_ofLittle 2 (65535 - size)
  rw [Nat.mod_eq_of_lt (by simp; omega)] at low high
  rw [sizeBytes, Bytes.little_append, low, high, Bytes.length_ofLittle]
  rfl

/-- Behind its size, a stored block goes on with its content, if there is any. -/
theorem finish_size (empty : s.count = 0) (phase : s.phase = .number 32 0 0 .storedSize)
    {size : Nat} (fits : size < 65536) (rest : Bytes) :
    finish (.of s) (sizeBytes size ++ rest) =
      finish (.of (if size = 0 then s.spent.endBlock
        else { s.spent with phase := .stored (size - 1) })) rest := by
  have spelled := little_sizeBytes fits
  have low : Bytes.little (sizeBytes size) % 65536 = size := by omega
  have high : Bytes.little (sizeBytes size) / 65536 = 65535 - size := by omega
  have four : (sizeBytes size).length = 4 := by simp [sizeBytes]
  have some : sizeBytes size ≠ [] := List.ne_nil_of_length_pos (by omega)
  rw [Inflate.finish_number some empty (by rw [four, phase]), Nat.zero_add, Nat.shiftLeft_zero]
  simp only [Inflate.takeNumber, low, high, ne_eq, not_true, if_false]

/-- **A stored block gives its content.** -/
theorem finish_stored_block (ready : s.Ready) (block : StoredBlock) (last : Bool) (rest : Bytes) :
    ∃ after : Inflate, finish (.of s) (block.encode last ++ rest) =
        (finish (.of after) rest).behind block.content ∧
      if last then after.phase = .done else after.Ready := by
  let sized : Inflate := { s.spent with last, phase := .number 32 0 0 .storedSize }
  refine ⟨(sized.spent.keepAll block.content).endBlock, ?_, ?_⟩
  · rw [StoredBlock.encode, List.cons_append, List.append_assoc, finish_head ready,
      finish_size rfl rfl block.fits]
    cases content : block.content with
    | nil => rfl
    | cons byte more => exact Inflate.finish_content (List.cons_ne_nil byte more) rfl rest
  · cases last with
    | true => rfl
    | false => exact ⟨rfl, rfl⟩

/-- **Inflating stored blocks gives their content** and leaves what is behind them. -/
theorem finish_stored (ready : s.Ready) (blocks : List StoredBlock) (last : StoredBlock)
    (rest : Bytes) :
    ∃ machine : Pending Fault Inflate, machine.stopped = true ∧
      finish (.of s) (StoredBlock.encodeAll blocks last ++ rest) =
        ⟨StoredBlock.contentOf blocks last, rest, machine⟩ := by
  induction blocks generalizing s with
  | nil =>
    obtain ⟨after, same, done⟩ := finish_stored_block ready last true rest
    have moves : Machine.move after = .stop after := by
      change after.move = _
      rw [Inflate.move, show after.phase = .done from done]
    have stopped := stopped_of moves
    refine ⟨.of after, stopped, ?_⟩
    rw [StoredBlock.encodeAll, same, finish_stopped stopped, Finished.behind, List.append_nil]
    rfl
  | cons block more ih =>
    obtain ⟨after, same, ready⟩ := finish_stored_block ready block false
      (StoredBlock.encodeAll more last ++ rest)
    obtain ⟨machine, stopped, later⟩ := ih ready
    refine ⟨machine, stopped, ?_⟩
    rw [StoredBlock.encodeAll, List.append_assoc, same, later]
    rfl

end Blocks

end DiskStaging.Deflate
