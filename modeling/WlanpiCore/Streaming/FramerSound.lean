import WlanpiCore.Streaming.Replay

/-!
# The framer on arbitrary bytes

Whatever dumpcap writes, `_pcapng_blocks` takes its stream apart into blocks and the bytes it drops
between them, in order and without overlap (`Framer.Sound.stream`).

**The invariant** (`Framer.Sound`). The bytes read so far are the cuts made so far, the bytes
dropped since the last of them, and the buffer. A byte order is remembered only while no byte has
been dropped since the block it was taken for, or while the buffer begins with the section header
that states it; so a block that is framed after a drop, or first of all, opens a section.

The loop is followed along its finite runs (`Framer.Loop`), which say what each turn drops;
`loop_run` says that every call has one.
-/

namespace WlanpiCore.Streaming

open Bytes

/-- A block as the framer cut it, after the bytes it dropped in front of it. -/
structure Cut where
  dropped : List UInt8
  block : Block
  deriving DecidableEq, Repr

def Cut.bytes (cut : Cut) : List UInt8 := cut.dropped ++ cut.block

/-- The last Section Header Block of some blocks. -/
def latestHeader (blocks : List Block) : Option Block :=
  blocks.reverse.find? fun block => slice block 0 4 = sectionHeader

/-- The byte order of the section that the last of some blocks is in. -/
def latestEndian (blocks : List Block) : Option Endian :=
  (latestHeader blocks).bind blockEndian

theorem latestEndian_header {blocks : List Block} {block : Block}
    (h : slice block 0 4 = sectionHeader) :
    latestEndian (blocks ++ [block]) = blockEndian block := by
  simp [latestEndian, latestHeader, h]

theorem latestEndian_body {blocks : List Block} {block : Block}
    (h : slice block 0 4 ≠ sectionHeader) :
    latestEndian (blocks ++ [block]) = latestEndian blocks := by
  simp [latestEndian, latestHeader, h]

/-- A cut that may follow others: the block is encoded in the byte order of the latest Section
Header Block, itself included, and it is one when it is the first or comes after a drop. -/
structure Cut.Follows (cut : Cut) (earlier : List Cut) : Prop where
  encoded : ∃ endian, latestEndian ((earlier ++ [cut]).map Cut.block) = some endian ∧
    Encoded endian cut.block
  opens : earlier = [] ∨ cut.dropped ≠ [] → slice cut.block 0 4 = sectionHeader

namespace Framer

/-- The bytes at the front of the buffer that are gone when `left` bytes are left. -/
def lost (c : Framer) (left : Nat) : List UInt8 :=
  c.pcapngBuffer.take (c.pcapngBuffer.length - left)

/-- A finite run of the `while` loop, with the bytes dropped since the last block before and after
it and the cuts it makes. -/
inductive Loop : Framer → List UInt8 → Framer → List UInt8 → List Cut → Prop where
  | leave {c d : Framer} {dropped : List UInt8} (h : c.turn = .leave d) :
      Loop c dropped d (dropped ++ c.lost d.pcapngBuffer.length) []
  | again {c d e : Framer} {dropped after : List UInt8} {cuts : List Cut} (h : c.turn = .again d)
      (hloop : Loop d (dropped ++ c.lost d.pcapngBuffer.length) e after cuts) :
      Loop c dropped e after cuts
  | emit {c d e : Framer} {dropped after : List UInt8} {block : Block} {cuts : List Cut}
      (h : c.turn = .emit d block) (hloop : Loop d [] e after cuts) :
      Loop c dropped e after
        (⟨dropped ++ c.lost (block.length + d.pcapngBuffer.length), block⟩ :: cuts)

/-- The loop ends, from whatever client, and emits the blocks it cuts. -/
theorem loop_run (c : Framer) (dropped : List UInt8) :
    ∃ after cuts, Loop c dropped c.run.1 after cuts ∧ c.run.2 = cuts.map Cut.block := by
  induction hn : c.pcapngBuffer.length using Nat.strong_induction_on generalizing c dropped with
  | _ n ih =>
    cases hturn : c.turn with
    | leave d =>
      rw [run_of_leave hturn]
      exact ⟨_, [], .leave hturn, rfl⟩
    | again d =>
      rw [run_of_again hturn]
      obtain ⟨after, cuts, hloop, hblocks⟩ := ih _ (hn ▸ turn_again_lt hturn) d _ rfl
      exact ⟨after, cuts, .again hturn hloop, hblocks⟩
    | emit d block =>
      rw [run_of_emit hturn]
      obtain ⟨after, cuts, hloop, hblocks⟩ := ih _ (hn ▸ turn_emit_lt hturn) d [] rfl
      exact ⟨after, _, .emit hturn hloop, by rw [List.map_cons, hblocks]⟩

@[simp] theorem lost_self (c : Framer) : c.lost c.pcapngBuffer.length = [] := by
  simp [lost]

theorem lost_drop (c : Framer) (n : Nat) :
    c.lost (c.pcapngBuffer.drop n).length = c.pcapngBuffer.take n := by
  rw [lost, List.length_drop, List.take_eq_take_iff]
  omega

/-- Bytes gone in two moves. -/
theorem lost_move (c : Framer) {start left : Nat} (h : left ≤ (c.pcapngBuffer.drop start).length) :
    c.pcapngBuffer.take start ++
        { c with pcapngBuffer := c.pcapngBuffer.drop start : Framer }.lost left = c.lost left := by
  rw [List.length_drop] at h
  by_cases hstart : start ≤ c.pcapngBuffer.length
  · rw [lost, lost, ← List.take_add, List.length_drop]
    congr 1
    omega
  · rw [lost, lost, List.drop_eq_nil_of_le (by omega), List.take_nil, List.append_nil,
      List.take_eq_take_iff]
    omega

/-- The framer once it has read `stream`, made some cuts and dropped some bytes since. -/
structure Sound (c : Framer) (stream : List UInt8) (cuts : List Cut) (dropped : List UInt8) :
    Prop where
  stream : stream = cuts.flatMap Cut.bytes ++ dropped ++ c.pcapngBuffer
  follows : ∀ earlier cut later, cuts = earlier ++ cut :: later → cut.Follows earlier
  endian : ∀ e, c.pcapngEndian = some e →
    slice c.pcapngBuffer 0 4 = sectionHeader ∨
      latestEndian (cuts.map Cut.block) = some e ∧ cuts ≠ [] ∧ dropped = []

theorem sound_initial : Sound {} [] [] [] where
  stream := rfl
  follows earlier cut later h := by simp at h
  endian e h := by cases h

variable {c d : Framer} {stream dropped : List UInt8} {cuts : List Cut} {block : Block}

/-- A framer that has lost its byte order may drop any bytes from the front. -/
theorem Sound.drop (h : Sound c stream cuts dropped) (n : Nat) :
    Sound { c with pcapngBuffer := c.pcapngBuffer.drop n, pcapngEndian := none } stream cuts
      (dropped ++ c.pcapngBuffer.take n) where
  stream := by
    rw [h.stream]
    simp only [List.append_assoc, List.take_append_drop]
  follows := h.follows
  endian e he := by cases he

/-- The byte order taken for the block at the front. -/
theorem Sound.endianAt {endian : Endian} (h : Sound c stream cuts dropped)
    (he : c.endianAt = some endian) :
    slice c.pcapngBuffer 0 4 = sectionHeader ∧ blockEndian c.pcapngBuffer = some endian ∨
      slice c.pcapngBuffer 0 4 ≠ sectionHeader ∧
        latestEndian (cuts.map Cut.block) = some endian ∧ cuts ≠ [] ∧ dropped = [] := by
  unfold Framer.endianAt at he
  by_cases htype : slice c.pcapngBuffer 0 4 = sectionHeader
  · rw [if_pos htype] at he
    exact Or.inl ⟨htype, he⟩
  · rw [if_neg htype] at he
    exact Or.inr ⟨htype, (h.endian endian he).resolve_left htype⟩

/-- Accepting a block whose two lengths agree. -/
theorem Sound.accept {endian : Endian} {total : Nat} (h : Sound c stream cuts dropped)
    (he : c.endianAt = some endian) (htotal : fromBytes endian (slice c.pcapngBuffer 4 8) = total)
    (h12 : 12 ≤ total) (halign : total % 4 = 0) (hlen : total ≤ c.pcapngBuffer.length)
    (htrail : fromBytes endian (slice c.pcapngBuffer (total - 4) total) = total) :
    Sound (c.accept endian total) stream (cuts ++ [Cut.mk dropped (c.pcapngBuffer.take total)])
      [] := by
  have hlength : (c.pcapngBuffer.take total).length = total := by
    rw [List.length_take]
    omega
  have hslice (i j : Nat) (hj : j ≤ total) :
      slice (c.pcapngBuffer.take total) i j = slice c.pcapngBuffer i j := by
    conv_rhs => rw [← List.take_append_drop total c.pcapngBuffer]
    rw [slice_append (by omega)]
  set block := c.pcapngBuffer.take total with hblock
  have hencoded : Encoded endian block := by
    refine ⟨by omega, by omega, ?_, ?_⟩
    · rw [hslice 4 8 (by omega), htotal, hlength]
    · rw [hlength, hslice _ _ le_rfl, htrail]
  have hendian := h.endianAt he
  have hlatest : latestEndian ((cuts ++ [Cut.mk dropped block]).map Cut.block) = some endian := by
    rw [List.map_append, List.map_singleton]
    rcases hendian with ⟨htype, hmagic⟩ | ⟨htype, hsection, -⟩
    · rw [← hslice 0 4 (by omega)] at htype
      rw [latestEndian_header htype, blockEndian, hslice 8 12 (by omega)]
      exact hmagic
    · rw [← hslice 0 4 (by omega)] at htype
      rw [latestEndian_body htype]
      exact hsection
  refine ⟨?_, fun earlier cut later hcuts => ?_, fun e hsome => Or.inr ⟨?_, by simp, rfl⟩⟩
  · rw [h.stream, accept_buffer]
    simp [Cut.bytes, hblock, List.take_append_drop]
  · rcases List.eq_nil_or_concat later with rfl | ⟨later, last, rfl⟩
    · -- The block just cut.
      obtain ⟨rfl, hcut⟩ := List.append_inj' hcuts rfl
      obtain rfl := List.singleton_inj.1 hcut
      refine ⟨⟨endian, hlatest, hencoded⟩, fun hopens => ?_⟩
      rw [hslice 0 4 (by omega)]
      rcases hendian with ⟨htype, -⟩ | ⟨-, -, hne, hnone⟩
      · exact htype
      · exact absurd hopens (by simp [hne, hnone])
    · rw [List.concat_eq_append, ← List.cons_append, ← List.append_assoc] at hcuts
      exact h.follows earlier cut later (List.append_inj' hcuts rfl).1
  · rw [accept_endian] at hsome
    exact hlatest.trans hsome

/-- What a turn at a block does: only bytes are dropped, or a block is cut. -/
theorem Sound.frame (h : Sound c stream cuts dropped) :
    (∀ d, c.frame = .leave d → d.pcapngBuffer.length ≤ c.pcapngBuffer.length ∧
        Sound d stream cuts (dropped ++ c.lost d.pcapngBuffer.length)) ∧
      (∀ d, c.frame = .again d → d.pcapngBuffer.length ≤ c.pcapngBuffer.length ∧
        Sound d stream cuts (dropped ++ c.lost d.pcapngBuffer.length)) ∧
      ∀ d block, c.frame = .emit d block →
        block.length + d.pcapngBuffer.length ≤ c.pcapngBuffer.length ∧
        Sound d stream
          (cuts ++ [⟨dropped ++ c.lost (block.length + d.pcapngBuffer.length), block⟩]) [] := by
  have hskip : c.skip.pcapngBuffer.length ≤ c.pcapngBuffer.length ∧
      Sound c.skip stream cuts (dropped ++ c.lost c.skip.pcapngBuffer.length) := by
    refine ⟨by simp, ?_⟩
    show Sound c.skip stream cuts (dropped ++ c.lost (c.pcapngBuffer.drop 1).length)
    rw [lost_drop]
    exact h.drop 1
  rcases Option.eq_none_or_eq_some c.endianAt with he | ⟨endian, he⟩
  · rw [frame_of_none he]
    refine ⟨fun d hd => (by cases hd), fun d hd => ?_, fun d block hd => by cases hd⟩
    cases hd
    exact hskip
  rw [frame_of_some he]
  rcases c.cut_cases endian with hcut | ⟨-, -, -, hcut⟩ | ⟨h12, halign, hlen, htrail, hcut⟩ <;>
    rw [hcut]
  · refine ⟨fun d hd => (by cases hd), fun d hd => ?_, fun d block hd => by cases hd⟩
    cases hd
    exact hskip
  · refine ⟨fun d hd => ?_, fun d hd => (by cases hd), fun d block hd => by cases hd⟩
    cases hd
    rw [lost_self, List.append_nil]
    refine ⟨le_rfl, h.stream, h.follows, fun e hsome => ?_⟩
    cases hsome
    exact (h.endianAt he).imp And.left And.right
  · refine ⟨fun d hd => (by cases hd), fun d hd => (by cases hd), fun d block hd => ?_⟩
    cases hd
    have hlength : (c.pcapngBuffer.take (fromBytes endian (slice c.pcapngBuffer 4 8))).length +
        (c.accept endian (fromBytes endian (slice c.pcapngBuffer 4 8))).pcapngBuffer.length =
          c.pcapngBuffer.length := by
      rw [accept_buffer, List.length_take, List.length_drop]
      omega
    rw [hlength, lost_self, List.append_nil]
    exact ⟨le_rfl, h.accept he rfl h12 halign hlen htrail⟩

/-- One turn keeps the invariant. -/
theorem Sound.turn (h : Sound c stream cuts dropped) :
    (∀ d, c.turn = .leave d → Sound d stream cuts (dropped ++ c.lost d.pcapngBuffer.length)) ∧
      (∀ d, c.turn = .again d → Sound d stream cuts (dropped ++ c.lost d.pcapngBuffer.length)) ∧
      ∀ d block, c.turn = .emit d block → Sound d stream
        (cuts ++ [⟨dropped ++ c.lost (block.length + d.pcapngBuffer.length), block⟩]) [] := by
  by_cases hlen : c.pcapngBuffer.length < 12
  · rw [turn_short hlen]
    refine ⟨fun d hd => ?_, fun d hd => (by cases hd), fun d block hd => by cases hd⟩
    cases hd
    rw [lost_self, List.append_nil]
    exact h
  rw [not_lt] at hlen
  rcases Option.eq_none_or_eq_some c.pcapngEndian with hend | ⟨e, hend⟩
  · -- Without a byte order the buffer may move.
    have hmove (n : Nat) : Sound { c with pcapngBuffer := c.pcapngBuffer.drop n } stream cuts
        (dropped ++ c.pcapngBuffer.take n) := by
      have := h.drop n
      rwa [← hend] at this
    cases hfind : find sectionHeader c.pcapngBuffer with
    | none =>
      rw [turn_lost hlen hend hfind]
      refine ⟨fun d hd => ?_, fun d hd => (by cases hd), fun d block hd => by cases hd⟩
      cases hd
      rw [lost_drop]
      exact hmove _
    | some start =>
      rw [turn_found hlen hend hfind]
      by_cases hlen' : (c.pcapngBuffer.drop start).length < 12
      · rw [if_pos hlen']
        refine ⟨fun d hd => ?_, fun d hd => (by cases hd), fun d block hd => by cases hd⟩
        cases hd
        rw [lost_drop]
        exact hmove _
      · rw [if_neg hlen']
        obtain ⟨hleave, hagain, hemit⟩ := (hmove start).frame
        refine ⟨fun d hd => ?_, fun d hd => ?_, fun d block hd => ?_⟩
        · obtain ⟨hle, hd⟩ := hleave d hd
          rwa [List.append_assoc, lost_move c hle] at hd
        · obtain ⟨hle, hd⟩ := hagain d hd
          rwa [List.append_assoc, lost_move c hle] at hd
        · obtain ⟨hle, hd⟩ := hemit d block hd
          rwa [List.append_assoc, lost_move c hle] at hd
  · rw [turn_known hlen hend]
    obtain ⟨hleave, hagain, hemit⟩ := h.frame
    exact ⟨fun d hd => (hleave d hd).2, fun d hd => (hagain d hd).2,
      fun d block hd => (hemit d block hd).2⟩

/-- A run of the loop makes more cuts. -/
theorem Sound.loop {after : List UInt8} {more : List Cut} (hloop : Loop c dropped d after more) :
    ∀ {cuts : List Cut}, Sound c stream cuts dropped → Sound d stream (cuts ++ more) after := by
  induction hloop with
  | leave hturn =>
    intro cuts h
    rw [List.append_nil]
    exact h.turn.1 _ hturn
  | again hturn _ ih =>
    intro cuts h
    exact ih (h.turn.2.1 _ hturn)
  | emit hturn _ ih =>
    intro cuts h
    have hrest := ih (h.turn.2.2 _ _ hturn)
    rwa [List.append_assoc, List.singleton_append] at hrest

theorem Sound.extend (h : Sound c stream cuts dropped) (chunk : List UInt8) :
    Sound (c.extend chunk) (stream ++ chunk) cuts dropped where
  stream := by
    rw [h.stream, extend_buffer]
    simp only [List.append_assoc]
  follows := h.follows
  endian e he := (h.endian e he).imp_left fun htype => header_extend htype chunk

end Framer

/-- The loop of each call in turn, as chunks arrive. -/
inductive Feeds : Framer → List UInt8 → List (List UInt8) → Framer → List UInt8 →
    List Cut → Prop where
  | nil {c : Framer} {dropped : List UInt8} : Feeds c dropped [] c dropped []
  | cons {c d e : Framer} {dropped between after chunk : List UInt8} {chunks : List (List UInt8)}
      {first rest : List Cut} (h : (c.extend chunk).Loop dropped d between first)
      (hrest : Feeds d between chunks e after rest) :
      Feeds c dropped (chunk :: chunks) e after (first ++ rest)

/-- Every call ends, so every feed has its cuts. -/
theorem feeds_pcapngFeed (chunks : List (List UInt8)) :
    ∀ (c : Framer) (dropped : List UInt8), ∃ after cuts,
      Feeds c dropped chunks (pcapngFeed c chunks).1 after cuts ∧
        (pcapngFeed c chunks).2 = cuts.map Cut.block := by
  induction chunks with
  | nil =>
    intro c dropped
    exact ⟨dropped, [], .nil, rfl⟩
  | cons chunk chunks ih =>
    intro c dropped
    obtain ⟨between, first, hfirst, hblocks⟩ := (c.extend chunk).loop_run dropped
    obtain ⟨after, rest, hrest, hblocks'⟩ := ih (pcapngBlocks c chunk).1 between
    refine ⟨after, first ++ rest, .cons hfirst hrest, ?_⟩
    rw [List.map_append, ← hblocks, ← hblocks']
    rfl

theorem Framer.Sound.feeds {c d : Framer} {dropped after : List UInt8}
    {chunks : List (List UInt8)} {more : List Cut} (hfeeds : Feeds c dropped chunks d after more) :
    ∀ {stream : List UInt8} {cuts : List Cut}, c.Sound stream cuts dropped →
      d.Sound (stream ++ chunks.flatten) (cuts ++ more) after := by
  induction hfeeds with
  | nil =>
    intro stream cuts h
    simpa using h
  | cons hloop _ ih =>
    intro stream cuts h
    have hrest := ih ((h.extend _).loop hloop)
    rwa [List.append_assoc, List.append_assoc] at hrest

/-- Framer soundness. However a stream is cut into chunks, every call ends, and the bytes fed so far
are the emitted blocks in order, with the bytes dropped on the way between them, and the buffer.
Every block has equal length fields in the byte order of the latest emitted Section Header Block,
and is one when it is the first or comes after a dropped byte. -/
theorem pcapngFeed_sound (chunks : List (List UInt8)) :
    ∃ dropped cuts, Feeds {} [] chunks (pcapngFeed {} chunks).1 dropped cuts ∧
      (pcapngFeed {} chunks).2 = cuts.map Cut.block ∧
      chunks.flatten = cuts.flatMap Cut.bytes ++ dropped ++ (pcapngFeed {} chunks).1.pcapngBuffer ∧
      ∀ earlier cut later, cuts = earlier ++ cut :: later → cut.Follows earlier := by
  obtain ⟨dropped, cuts, hfeeds, hblocks⟩ := feeds_pcapngFeed chunks {} []
  have hsound := Framer.sound_initial.feeds hfeeds
  exact ⟨dropped, cuts, hfeeds, hblocks, hsound.stream, hsound.follows⟩

end WlanpiCore.Streaming
