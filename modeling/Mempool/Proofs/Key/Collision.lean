import Mathlib.Algebra.Group.Nat.Defs
import Mathlib.Data.List.Basic
import Mathlib.Data.List.Induction
import Mempool.Key

/-! When two transactions share a key. Neither the padding nor the length at its end can bring that
about: followed back from their common end, the two runs of the compression function come to two
different steps with the same output. -/
namespace Mempool

namespace Sha256

/-! ## Padding -/

theorem length_pad (message : List UInt8) :
    (pad message).length = message.length + paddingZeros message.length + 9 := by
  simp [pad]
  omega

/-- A padded message ends in eight bytes that tell how long the message is. -/
theorem take_reverse_pad (message : List UInt8) :
    (pad message).reverse.take 8 = LittleEndian.encode 8 (8 * message.length) := by
  simp [pad]

/-- A padded message is not the end of another one, whatever their lengths. -/
theorem eq_of_pad_suffix {a b : List UInt8} (short_a : a.length < 2 ^ 61)
    (short_b : b.length < 2 ^ 61) (suffix : pad a <:+ pad b) : a = b := by
  obtain ⟨front, whole⟩ := suffix
  have bits : LittleEndian.encode 8 (8 * a.length) = LittleEndian.encode 8 (8 * b.length) := by
    rw [← take_reverse_pad, ← take_reverse_pad, ← whole, List.reverse_append,
      List.take_append_of_le_length (by simp [length_pad])]
  have value := congrArg LittleEndian.value bits
  simp only [LittleEndian.value_encode, LittleEndian.capacity_eight] at value
  have length : a.length = b.length := by omega
  have nothing : front = [] := by
    have total := congrArg List.length whole
    simpa [length_pad, length] using total
  rw [nothing, List.nil_append, pad, pad] at whole
  exact (List.append_inj whole length).1

theorem length_of_mem_takeBlocks {count : Nat} {bytes block : List UInt8}
    (enough : count * blockSize ≤ bytes.length) (member : block ∈ takeBlocks count bytes) :
    block.length = blockSize := by
  induction count generalizing bytes with
  | zero => simp [takeBlocks] at member
  | succ count ih =>
    rw [Nat.succ_mul] at enough
    rcases List.mem_cons.mp member with rfl | later
    · exact List.length_take_of_le (by omega)
    · refine ih ?_ later
      rw [List.length_drop]
      omega

/-! ## Runs of the compression function -/

/-- One use of the compression function: the state that comes in, and the block. -/
structure Compression where
  state : State
  block : List UInt8
deriving DecidableEq, Repr

def Compression.output (c : Compression) : State := compress c.state c.block

/-- The compression function on one block after another, from this state on. -/
def chain : State → List (List UInt8) → List Compression
  | _, [] => []
  | s, block :: blocks => ⟨s, block⟩ :: chain (compress s block) blocks

def compressions (message : List UInt8) : List Compression := chain initial (blocks (pad message))

theorem chain_append (s : State) (blocks more : List (List UInt8)) :
    chain s (blocks ++ more) = chain s blocks ++ chain (blocks.foldl compress s) more := by
  induction blocks generalizing s with
  | nil => rfl
  | cons block blocks ih => simp [chain, ih]

@[simp] theorem map_block_chain (s : State) (blocks : List (List UInt8)) :
    (chain s blocks).map Compression.block = blocks := by
  induction blocks generalizing s with
  | nil => rfl
  | cons block blocks ih => simp [chain, ih]

theorem foldl_compress (s : State) (blocks : List (List UInt8)) :
    blocks.foldl compress s = ((chain s blocks).getLast?.map Compression.output).getD s := by
  rcases List.eq_nil_or_concat' blocks with rfl | ⟨front, block, rfl⟩
  · rfl
  · simp [chain_append, chain, Compression.output]

theorem length_block {message : List UInt8} {c : Compression} (member : c ∈ compressions message) :
    c.block.length = blockSize := by
  have inside : c.block ∈ blocks (pad message) := by
    rw [← map_block_chain initial (blocks (pad message))]
    exact List.mem_map_of_mem member
  exact length_of_mem_takeBlocks (Nat.div_mul_le_self _ _) inside

/-- Two runs with the same steps at their ends, and right before these two different steps with the
same output. -/
def Collide (run other : List Compression) : Prop :=
  ∃ before before' x y after, run = before ++ x :: after ∧ other = before' ++ y :: after ∧
    x ≠ y ∧ x.output = y.output

theorem Collide.append {run other : List Compression} (collide : Collide run other)
    (more : List Compression) : Collide (run ++ more) (other ++ more) := by
  obtain ⟨before, before', x, y, after, rfl, rfl, different, same⟩ := collide
  exact ⟨before, before', x, y, after ++ more, by simp, by simp, different, same⟩

theorem Collide.ne {run other : List Compression} (collide : Collide run other) : run ≠ other := by
  obtain ⟨before, before', x, y, after, rfl, rfl, different, _⟩ := collide
  intro equal
  have ends := List.append_inj_right' equal rfl
  exact different (List.cons.inj ends).1

theorem Collide.getLast? {run other : List Compression} (collide : Collide run other) :
    run.getLast?.map Compression.output = other.getLast?.map Compression.output := by
  obtain ⟨before, before', x, y, after, rfl, rfl, _, same⟩ := collide
  rcases List.eq_nil_or_concat' after with rfl | ⟨front, last, rfl⟩
  · simp [same]
  · rw [List.append_cons, List.append_cons before', ← List.append_assoc, ← List.append_assoc,
      List.getLast?_concat, List.getLast?_concat]

theorem suffix_or_collide {s t : State} {bs cs : List (List UInt8)}
    (same : bs.foldl compress s = cs.foldl compress t) :
    chain s bs <:+ chain t cs ∨ chain t cs <:+ chain s bs ∨ Collide (chain s bs) (chain t cs) := by
  -- From the last block back the runs agree, until they collide or one of them is at its beginning.
  induction bs using List.reverseRecOn generalizing cs with
  | nil => exact .inl List.nil_suffix
  | append_singleton bs b ih =>
    rcases List.eq_nil_or_concat' cs with rfl | ⟨cs, c, rfl⟩
    · exact .inr (.inl List.nil_suffix)
    · simp only [chain_append, chain]
      by_cases equal : (⟨bs.foldl compress s, b⟩ : Compression) = ⟨cs.foldl compress t, c⟩
      · rw [equal]
        obtain ⟨states, _⟩ := Compression.mk.inj equal
        rcases ih states with suffix | suffix | collide
        · exact .inl (List.suffix_append_self_iff.mpr suffix)
        · exact .inr (.inl (List.suffix_append_self_iff.mpr suffix))
        · exact .inr (.inr (collide.append _))
      · refine .inr (.inr ⟨_, _, _, _, [], rfl, rfl, equal, ?_⟩)
        simpa [Compression.output] using same

/-- If the run for one message is the end of the run for another, so is the padded message. -/
theorem pad_suffix_of_compressions {a b : List UInt8} (suffix : compressions a <:+ compressions b) :
    pad a <:+ pad b := by
  obtain ⟨front, whole⟩ := suffix
  have blocks := congrArg (fun run => (run.map Compression.block).flatten) whole
  simp only [compressions, List.map_append, map_block_chain, List.flatten_append,
    flatten_blocks_pad] at blocks
  exact ⟨_, blocks⟩

/-! ## Digests -/

theorem wordBytes_injective {x y : UInt32} (same : wordBytes x = wordBytes y) : x = y := by
  simp only [wordBytes, List.cons.injEq, and_true, ← UInt8.toNat_inj, UInt32.toNat_toUInt8,
    UInt32.toNat_shiftRight] at same
  simp [Nat.shiftRight_eq_div_pow] at same
  have bound := x.toNat_lt
  have bound' := y.toNat_lt
  apply UInt32.toNat_inj.mp
  omega

theorem wordBytes_append_inj {x y : UInt32} {rest rest' : List UInt8} :
    wordBytes x ++ rest = wordBytes y ++ rest' ↔ x = y ∧ rest = rest' := by
  constructor
  · intro same
    obtain ⟨word, others⟩ := List.append_inj same rfl
    exact ⟨wordBytes_injective word, others⟩
  · rintro ⟨rfl, rfl⟩
    rfl

theorem State.bytes_injective {s t : State} (same : s.bytes = t.bytes) : s = t := by
  have last {x y : UInt32} : wordBytes x = wordBytes y ↔ x = y :=
    ⟨wordBytes_injective, congrArg wordBytes⟩
  cases s
  cases t
  simpa only [bytes, List.append_assoc, wordBytes_append_inj, last, mk.injEq] using same

theorem digest_eq (message : List UInt8) : digest message =
    (((compressions message).getLast?.map Compression.output).getD initial).bytes := by
  rw [digest, foldl_compress, compressions]

theorem Collide.digest_eq {a b : List UInt8} (collide : Collide (compressions a) (compressions b)) :
    a ≠ b ∧ digest a = digest b := by
  refine ⟨fun same => collide.ne (congrArg compressions same), ?_⟩
  rw [Sha256.digest_eq, Sha256.digest_eq, collide.getLast?]

end Sha256

/-- Different transactions share a key exactly if the runs of the compression function for them
collide. Every step of a run is on a block of 64 bytes, and no padded transaction is the end of
another one: the marks and the length put after a transaction do not make up for a difference. -/
theorem Key.shared_iff_collide {a b : List UInt8} (short_a : a.length < 2 ^ 61)
    (short_b : b.length < 2 ^ 61) :
    (a ≠ b ∧ ofTx a = ofTx b ↔ Sha256.Collide (Sha256.compressions a) (Sha256.compressions b)) ∧
    (∀ c ∈ Sha256.compressions a ++ Sha256.compressions b, c.block.length = 64) ∧
    (Sha256.pad a <:+ Sha256.pad b ↔ a = b) := by
  refine ⟨⟨?_, ?_⟩, ?_, ?_, ?_⟩
  · rintro ⟨different, same⟩
    have states := Sha256.State.bytes_injective (congrArg Key.bytes same)
    rcases Sha256.suffix_or_collide states with suffix | suffix | collide
    · have padded := Sha256.pad_suffix_of_compressions suffix
      exact absurd (Sha256.eq_of_pad_suffix short_a short_b padded) different
    · have padded := Sha256.pad_suffix_of_compressions suffix
      exact absurd (Sha256.eq_of_pad_suffix short_b short_a padded).symm different
    · exact collide
  · intro collide
    obtain ⟨different, same⟩ := collide.digest_eq
    exact ⟨different, ext same⟩
  · intro c member
    rcases List.mem_append.mp member with first | second
    · exact Sha256.length_block first
    · exact Sha256.length_block second
  · exact Sha256.eq_of_pad_suffix short_a short_b
  · rintro rfl
    exact List.suffix_rfl

/-- The mark after the empty transaction is a transaction by itself, with a key of its own. -/
theorem Key.mark_not_shared : ofTx [] ≠ ofTx [0x80] ∧
    ¬Sha256.Collide (Sha256.compressions []) (Sha256.compressions [0x80]) := by
  have different : ofTx [] ≠ ofTx [0x80] := by decide +kernel
  obtain ⟨shared, _, _⟩ := shared_iff_collide (a := []) (b := [0x80]) (by decide) (by decide)
  exact ⟨different, fun collide => different (shared.mpr collide).2⟩

end Mempool
