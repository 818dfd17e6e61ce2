import WlanpiCore.Streaming.FramerRoundTrip
import Mathlib.Data.List.TakeWhile

/-!
# The replay header

`pcapng_header` holds the Section Header Block of the current section and the blocks before its
first packet block, of what was framed so far (`Framer.Replays`), whatever the stream.
-/

namespace WlanpiCore.Streaming

open Bytes

/-- The byte order that a Section Header Block states. -/
def blockEndian (block : Block) : Option Endian :=
  if slice block 8 12 = byteOrderMagic .little then some .little
  else if slice block 8 12 = byteOrderMagic .big then some .big
  else none

/-- The blocks from the last Section Header Block on. -/
def currentSection (blocks : List Block) : List Block :=
  blocks.foldl (fun blocks block =>
    if slice block 0 4 = sectionHeader then [block] else blocks ++ [block]) []

def sectionEndian (blocks : List Block) : Option Endian :=
  (currentSection blocks).head?.bind blockEndian

/-- A packet block of the current section. -/
def isPacketOf (blocks : List Block) (block : Block) : Bool :=
  (sectionEndian blocks).any fun endian => isPacket endian block

/-- The Section Header Block of the current section and the blocks before the first packet block. -/
def replay (blocks : List Block) : List UInt8 :=
  ((currentSection blocks).takeWhile fun block => !isPacketOf blocks block).flatten

namespace Framer

/-- The framer after it has framed some blocks. While it waits for the rest of a Section Header
Block it has that block's byte order already. -/
structure Replays (c : Framer) (blocks : List Block) : Prop where
  header : c.pcapngHeader = replay blocks
  complete : c.pcapngHeaderComplete = (currentSection blocks).any (isPacketOf blocks)
  endian : ∀ e, c.pcapngEndian = some e →
    slice c.pcapngBuffer 0 4 = sectionHeader ∨ sectionEndian blocks = some e

theorem replays_initial : Replays {} [] := ⟨rfl, rfl, fun e h => by cases h⟩

theorem currentSection_header {blocks : List Block} {block : Block}
    (h : slice block 0 4 = sectionHeader) : currentSection (blocks ++ [block]) = [block] := by
  simp [currentSection, List.foldl_append, h]

theorem currentSection_body {blocks : List Block} {block : Block}
    (h : slice block 0 4 ≠ sectionHeader) :
    currentSection (blocks ++ [block]) = currentSection blocks ++ [block] := by
  simp [currentSection, List.foldl_append, h]

theorem isPacket_sectionHeader {block : Block} (endian : Endian)
    (h : slice block 0 4 = sectionHeader) : isPacket endian block = false := by
  unfold isPacket
  rw [h]
  cases endian <;> decide

/-- What framing a block does to the header. -/
theorem Replays.record {c : Framer} {blocks : List Block} {endian : Endian} {block : Block}
    (hheader : c.pcapngHeader = replay blocks)
    (hcomplete : c.pcapngHeaderComplete = (currentSection blocks).any (isPacketOf blocks))
    (hendian : slice block 0 4 = sectionHeader ∧ blockEndian block = some endian ∨
      slice block 0 4 ≠ sectionHeader ∧ sectionEndian blocks = some endian) :
    (c.record endian block).pcapngHeader = replay (blocks ++ [block]) ∧
      (c.record endian block).pcapngHeaderComplete =
        (currentSection (blocks ++ [block])).any (isPacketOf (blocks ++ [block])) ∧
      sectionEndian (blocks ++ [block]) = some endian := by
  rcases hendian with ⟨htype, hmagic⟩ | ⟨htype, hsection⟩
  · have hpacket := isPacket_sectionHeader endian htype
    have hcurrent : sectionEndian (blocks ++ [block]) = some endian := by
      simp [sectionEndian, currentSection_header htype, hmagic]
    have hnone : isPacketOf (blocks ++ [block]) block = false := by
      simp [isPacketOf, hcurrent, hpacket]
    have hmem : fromBytes endian sectionHeader ∉ packetBlockTypes := by
      rw [← htype]
      simpa [isPacket] using hpacket
    refine ⟨?_, ?_, hcurrent⟩
    · simp [Framer.record, htype, replay, currentSection_header htype, hnone, hmem]
    · simp [Framer.record, htype, currentSection_header htype, hnone, hmem]
  · have hne : currentSection blocks ≠ [] := by
      intro hnil
      rw [sectionEndian, hnil] at hsection
      cases hsection
    have hcurrent : sectionEndian (blocks ++ [block]) = some endian := by
      rw [sectionEndian, currentSection_body htype, List.head?_append_of_ne_nil _ hne]
      exact hsection
    have hpackets : isPacketOf (blocks ++ [block]) = isPacketOf blocks := by
      funext b
      rw [isPacketOf, isPacketOf, hcurrent, hsection]
    have hblock : isPacketOf blocks block = isPacket endian block := by
      rw [isPacketOf, hsection]
      rfl
    have hrecord : c.record endian block = if c.pcapngHeaderComplete then c
        else if isPacket endian block then { c with pcapngHeaderComplete := true }
        else { c with pcapngHeader := c.pcapngHeader ++ block } := by
      simp [Framer.record, htype, isPacket]
    rw [hrecord, replay, currentSection_body htype, hpackets, List.any_append, ← hcomplete]
    refine ⟨?_, ?_, hcurrent⟩
    · by_cases hdone : c.pcapngHeaderComplete = true
      · rw [if_pos hdone, hheader, replay, List.takeWhile_append, if_neg]
        intro hlength
        rw [hcomplete] at hdone
        obtain ⟨b, hb, hpacket⟩ := List.any_eq_true.1 hdone
        have hall := (List.takeWhile_prefix (fun b => !isPacketOf blocks b)).eq_of_length hlength
        have hb' := List.takeWhile_eq_self_iff.1 hall b hb
        simp [hpacket] at hb'
      · have hnone : ∀ b ∈ currentSection blocks, (!isPacketOf blocks b) = true := by
          simpa [hcomplete] using hdone
        rw [if_neg hdone, List.takeWhile_append_of_pos hnone]
        rw [replay, List.takeWhile_eq_self_iff.2 hnone] at hheader
        by_cases hpacket : isPacket endian block = true
        · simp [hpacket, hblock, hheader]
        · simp [hpacket, hblock, hheader]
    · by_cases hdone : c.pcapngHeaderComplete = true
      · simp [hdone]
      · rw [if_neg hdone]
        by_cases hpacket : isPacket endian block = true
        · simp [hpacket, hblock]
        · simp [hpacket, hblock]

/-! ## The loop -/

variable {c d : Framer} {blocks : List Block} {block : Block}

/-- The byte order taken for the block at the front. -/
theorem Replays.endianAt {endian : Endian} (h : Replays c blocks)
    (he : c.endianAt = some endian) :
    slice c.pcapngBuffer 0 4 = sectionHeader ∧ blockEndian c.pcapngBuffer = some endian ∨
      slice c.pcapngBuffer 0 4 ≠ sectionHeader ∧ sectionEndian blocks = some endian := by
  unfold Framer.endianAt at he
  by_cases htype : slice c.pcapngBuffer 0 4 = sectionHeader
  · rw [if_pos htype] at he
    exact Or.inl ⟨htype, he⟩
  · rw [if_neg htype] at he
    exact Or.inr ⟨htype, (h.endian endian he).resolve_left htype⟩

theorem Replays.skip (h : Replays c blocks) : Replays c.skip blocks :=
  ⟨h.header, h.complete, fun e he => by cases he⟩

/-- What a turn leaves is the framer after the blocks framed so far. -/
theorem Replays.frame (h : Replays c blocks) :
    (∀ d, c.frame = .leave d → Replays d blocks) ∧ (∀ d, c.frame = .again d → Replays d blocks) ∧
      ∀ d block, c.frame = .emit d block → Replays d (blocks ++ [block]) := by
  rcases Option.eq_none_or_eq_some c.endianAt with he | ⟨endian, he⟩
  · rw [frame_of_none he]
    refine ⟨fun d hd => (by cases hd), fun d hd => ?_, fun d block hd => by cases hd⟩
    cases hd
    exact h.skip
  rw [frame_of_some he]
  have hendian := h.endianAt he
  rcases c.cut_cases endian with hcut | ⟨-, -, -, hcut⟩ | ⟨h12, -, hlen, -, hcut⟩ <;> rw [hcut]
  · refine ⟨fun d hd => (by cases hd), fun d hd => ?_, fun d block hd => by cases hd⟩
    cases hd
    exact h.skip
  · refine ⟨fun d hd => ?_, fun d hd => (by cases hd), fun d block hd => by cases hd⟩
    cases hd
    refine ⟨h.header, h.complete, fun e hsome => ?_⟩
    cases hsome
    exact hendian.imp And.left And.right
  · refine ⟨fun d hd => (by cases hd), fun d hd => (by cases hd), fun d block hd => ?_⟩
    cases hd
    set total := fromBytes endian (slice c.pcapngBuffer 4 8) with htotal
    have hslice (i j : Nat) (hj : j ≤ 12) :
        slice (c.pcapngBuffer.take total) i j = slice c.pcapngBuffer i j := by
      conv_rhs => rw [← List.take_append_drop total c.pcapngBuffer]
      rw [slice_append]
      rw [List.length_take]
      omega
    set block := c.pcapngBuffer.take total with hblock
    have hendian' : slice block 0 4 = sectionHeader ∧ blockEndian block = some endian ∨
        slice block 0 4 ≠ sectionHeader ∧ sectionEndian blocks = some endian := by
      rw [blockEndian, hslice 0 4 (by omega), hslice 8 12 le_rfl]
      exact hendian
    have hrecorded := Replays.record (c := { c with
        pcapngBuffer := c.pcapngBuffer.drop total, pcapngEndian := some endian })
      h.header h.complete hendian'
    refine ⟨hrecorded.1, hrecorded.2.1, fun e hsome => Or.inr ?_⟩
    rw [accept_endian] at hsome
    cases hsome
    exact hrecorded.2.2

theorem Replays.turn (h : Replays c blocks) :
    (∀ d, c.turn = .leave d → Replays d blocks) ∧ (∀ d, c.turn = .again d → Replays d blocks) ∧
      ∀ d block, c.turn = .emit d block → Replays d (blocks ++ [block]) := by
  by_cases hlen : c.pcapngBuffer.length < 12
  · rw [turn_short hlen]
    refine ⟨fun d hd => ?_, fun d hd => (by cases hd), fun d block hd => by cases hd⟩
    cases hd
    exact h
  rw [not_lt] at hlen
  rcases Option.eq_none_or_eq_some c.pcapngEndian with hend | ⟨e, hend⟩
  · -- Without a byte order the buffer may move.
    have hmove (n : Nat) : Replays { c with pcapngBuffer := c.pcapngBuffer.drop n } blocks :=
      ⟨h.header, h.complete, fun e he => by cases hend.symm.trans he⟩
    cases hfind : find sectionHeader c.pcapngBuffer with
    | none =>
      rw [turn_lost hlen hend hfind]
      refine ⟨fun d hd => ?_, fun d hd => (by cases hd), fun d block hd => by cases hd⟩
      cases hd
      exact hmove _
    | some start =>
      rw [turn_found hlen hend hfind]
      by_cases hlen' : (c.pcapngBuffer.drop start).length < 12
      · rw [if_pos hlen']
        refine ⟨fun d hd => ?_, fun d hd => (by cases hd), fun d block hd => by cases hd⟩
        cases hd
        exact hmove _
      · rw [if_neg hlen']
        exact (hmove start).frame
  · rw [turn_known hlen hend]
    exact h.frame

theorem Replays.run (h : Replays c blocks) : Replays c.run.1 (blocks ++ c.run.2) := by
  induction hn : c.pcapngBuffer.length using Nat.strong_induction_on generalizing c blocks with
  | _ n ih =>
    obtain ⟨hleave, hagain, hemit⟩ := h.turn
    cases hturn : c.turn with
    | leave d =>
      rw [run_of_leave hturn, List.append_nil]
      exact hleave d hturn
    | again d =>
      rw [run_of_again hturn]
      exact ih _ (hn ▸ turn_again_lt hturn) (hagain d hturn) rfl
    | emit d block =>
      rw [run_of_emit hturn]
      have hd := ih _ (hn ▸ turn_emit_lt hturn) (hemit d block hturn) rfl
      rwa [List.append_assoc] at hd

end Framer

/-- A section header at the start of the buffer is there when more has arrived. -/
theorem Framer.header_extend {c : Framer} (h : slice c.pcapngBuffer 0 4 = sectionHeader)
    (bs : List UInt8) : slice (c.extend bs).pcapngBuffer 0 4 = sectionHeader := by
  have hlength : 4 ≤ c.pcapngBuffer.length := by
    have hsame := congrArg List.length h
    simp only [slice, List.length_take, List.length_drop] at hsame
    rw [show sectionHeader.length = 4 from rfl] at hsame
    omega
  rw [extend_buffer, slice_append hlength]
  exact h

/-- The replay header after one more chunk. -/
theorem Framer.Replays.pcapngBlocks {c : Framer} {blocks : List Block} (h : c.Replays blocks)
    (chunk : List UInt8) :
    (pcapngBlocks c chunk).1.Replays (blocks ++ (pcapngBlocks c chunk).2) := by
  refine Replays.run ⟨h.header, h.complete, fun e he => (h.endian e he).imp_left fun htype => ?_⟩
  exact header_extend htype chunk

end WlanpiCore.Streaming
