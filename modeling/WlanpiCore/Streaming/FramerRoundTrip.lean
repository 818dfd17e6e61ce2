import WlanpiCore.Streaming.FramerChunks

/-!
# Round trip of the framer

**Theorem (`pcapngFeed_roundTrip`).** A well-formed pcapng stream, cut into chunks anywhere, comes
back as its blocks in order with nothing left in the buffer, and the replay header is that of the
last section.

A well-formed stream is a list of `Section`s, which carry the proofs that their blocks are encoded
in the section's byte order. On such a stream every turn of the loop emits the block at the front
(`turn_block`); `run_body`, `run_section` and `run_sections` follow the stream's structure, and
`pcapngFeed_agree` brings the chunks in.
-/

namespace WlanpiCore.Streaming

open Bytes

/-- A block encoded in a byte order: both length fields hold its length. -/
structure Encoded (endian : Endian) (block : Block) : Prop where
  min : 12 ≤ block.length
  aligned : block.length % 4 = 0
  leading : fromBytes endian (slice block 4 8) = block.length
  trailing : fromBytes endian (slice block (block.length - 4) block.length) = block.length

/-- A packet block: the first one of a section completes its replay header. -/
def isPacket (endian : Endian) (block : Block) : Bool :=
  fromBytes endian (slice block 0 4) ∈ packetBlockTypes

/-- A section of a pcapng stream. A block of the Section Header type opens the next section, so
the body has none. -/
structure Section where
  endian : Endian
  header : Block
  body : List Block
  header_type : slice header 0 4 = sectionHeader
  header_magic : slice header 8 12 = byteOrderMagic endian
  header_encoded : Encoded endian header
  body_encoded : ∀ block ∈ body, Encoded endian block
  body_type : ∀ block ∈ body, slice block 0 4 ≠ sectionHeader

namespace Section

def blocks (s : Section) : List Block := s.header :: s.body

def bytes (s : Section) : List UInt8 := s.blocks.flatten

/-- The Section Header Block and the blocks before the first packet block. -/
def replay (s : Section) : List UInt8 :=
  s.header ++ (s.body.takeWhile fun block => !isPacket s.endian block).flatten

def hasPacket (s : Section) : Bool := s.body.any (isPacket s.endian)

end Section

namespace Framer

/-! ## One block -/

theorem endianAt_body {c : Framer} {block rest : List UInt8} (hlen : 12 ≤ block.length)
    (hbuf : c.pcapngBuffer = block ++ rest) (htype : slice block 0 4 ≠ sectionHeader) :
    c.endianAt = c.pcapngEndian := by
  simp only [endianAt, hbuf, slice_append (show 4 ≤ block.length by omega), if_neg htype]

theorem endianAt_header {c : Framer} {endian : Endian} {block rest : List UInt8}
    (hlen : 12 ≤ block.length) (hbuf : c.pcapngBuffer = block ++ rest)
    (htype : slice block 0 4 = sectionHeader) (hmagic : slice block 8 12 = byteOrderMagic endian) :
    c.endianAt = some endian := by
  simp only [endianAt, hbuf, slice_append (show 4 ≤ block.length by omega),
    slice_append hlen, htype,
    hmagic, if_true]
  cases endian <;> decide

theorem cut_block {c : Framer} {endian : Endian} {block rest : List UInt8}
    (henc : Encoded endian block) (hbuf : c.pcapngBuffer = block ++ rest) :
    c.cut endian = .emit
      ({ c with pcapngBuffer := rest, pcapngEndian := some endian }.record endian block) block := by
  have hmin := henc.min
  have htotal : fromBytes endian (slice c.pcapngBuffer 4 8) = block.length := by
    rw [hbuf, slice_append (by omega), henc.leading]
  have htrail : fromBytes endian
      (slice c.pcapngBuffer (block.length - 4) block.length) = block.length := by
    rw [hbuf, slice_append le_rfl, henc.trailing]
  have haligned := henc.aligned
  simp only [cut, htotal, htrail]
  rw [if_neg (by omega), if_neg (by simp only [hbuf, List.length_append]; omega),
    if_neg (not_not.2 rfl), accept, hbuf, List.take_left', List.drop_left'] <;> rfl

/-- A complete block at the front is emitted, with or without a section before it. -/
theorem turn_block {c : Framer} {endian : Endian} {block rest : List UInt8}
    (henc : Encoded endian block) (hbuf : c.pcapngBuffer = block ++ rest)
    (hat : c.endianAt = some endian)
    (hfront : c.pcapngEndian = none → slice block 0 4 = sectionHeader) :
    c.turn = .emit
      ({ c with pcapngBuffer := rest, pcapngEndian := some endian }.record endian block) block := by
  have hlen : 12 ≤ c.pcapngBuffer.length := by
    have := henc.min
    simp only [hbuf, List.length_append]
    omega
  rw [← cut_block henc hbuf, ← frame_of_some hat]
  rcases Option.eq_none_or_eq_some c.pcapngEndian with hend | ⟨e, hend⟩
  · have hpre : sectionHeader <+: c.pcapngBuffer := by
      rw [hbuf, ← hfront hend]
      exact (List.take_prefix 4 block).trans (List.prefix_append _ _)
    exact turn_aligned hlen hend hpre
  · exact turn_known hlen hend

/-! ## What a block does to the replay header -/

theorem record_header {c : Framer} {endian : Endian} {block : Block}
    (htype : slice block 0 4 = sectionHeader) :
    c.record endian block = { c with pcapngHeader := block, pcapngHeaderComplete := false } := by
  have hpacket : fromBytes endian sectionHeader ∉ packetBlockTypes := by
    cases endian <;> decide
  simp only [record, htype, if_true, if_neg hpacket, Bool.false_eq_true, if_false, List.nil_append]

theorem record_body {c : Framer} {endian : Endian} {block : Block}
    (htype : slice block 0 4 ≠ sectionHeader) :
    c.record endian block =
      { c with
        pcapngHeader := if c.pcapngHeaderComplete || isPacket endian block then c.pcapngHeader
          else c.pcapngHeader ++ block
        pcapngHeaderComplete := c.pcapngHeaderComplete || isPacket endian block } := by
  obtain ⟨buffer, header, e, complete⟩ := c
  cases complete <;> by_cases hp : fromBytes endian (slice block 0 4) ∈ packetBlockTypes <;>
    simp [record, htype, isPacket, hp]

/-! ## Blocks, sections, streams -/

theorem run_body {endian : Endian} (rest : List UInt8) :
    ∀ {body : List Block} {c : Framer}, (∀ block ∈ body, Encoded endian block) →
      (∀ block ∈ body, slice block 0 4 ≠ sectionHeader) →
      c.pcapngBuffer = body.flatten ++ rest → c.pcapngEndian = some endian →
      ∃ d : Framer, c.run = (d.run.1, body ++ d.run.2) ∧ d.pcapngBuffer = rest ∧
        d.pcapngEndian = some endian ∧
        d.pcapngHeader = (if c.pcapngHeaderComplete then c.pcapngHeader else c.pcapngHeader ++
          (body.takeWhile fun block => !isPacket endian block).flatten) ∧
        d.pcapngHeaderComplete = (c.pcapngHeaderComplete || body.any (isPacket endian))
  | [], c, _, _, hbuf, hend => ⟨c, by simp, by simpa using hbuf, hend, by simp, by simp⟩
  | block :: body, c, henc, htype, hbuf, hend => by
    have henc' := henc block List.mem_cons_self
    have htype' := htype block List.mem_cons_self
    have hbuf' : c.pcapngBuffer = block ++ (body.flatten ++ rest) := by simp [hbuf]
    have hturn := turn_block henc' hbuf' ((endianAt_body henc'.min hbuf' htype').trans hend)
      (fun h => by rw [hend] at h; cases h)
    rw [record_body htype'] at hturn
    obtain ⟨d, hrun, hdbuf, hdend, hheader, hcomplete⟩ := run_body rest
      (c := { c with
        pcapngBuffer := body.flatten ++ rest
        pcapngEndian := some endian
        pcapngHeader := if c.pcapngHeaderComplete || isPacket endian block then c.pcapngHeader
          else c.pcapngHeader ++ block
        pcapngHeaderComplete := c.pcapngHeaderComplete || isPacket endian block })
      (fun b hb => henc b (List.mem_cons_of_mem _ hb))
      (fun b hb => htype b (List.mem_cons_of_mem _ hb)) rfl rfl
    refine ⟨d, ?_, hdbuf, hdend, ?_, ?_⟩
    · rw [run_of_emit hturn, hrun]
      rfl
    · rw [hheader]
      cases c.pcapngHeaderComplete <;> cases hp : isPacket endian block <;> simp [hp]
    · rw [hcomplete, List.any_cons, Bool.or_assoc]

theorem run_section (s : Section) {c : Framer} (rest : List UInt8)
    (hbuf : c.pcapngBuffer = s.bytes ++ rest) :
    ∃ d : Framer, c.run = (d.run.1, s.blocks ++ d.run.2) ∧ d.pcapngBuffer = rest ∧
      d.pcapngEndian = some s.endian ∧ d.pcapngHeader = s.replay ∧
      d.pcapngHeaderComplete = s.hasPacket := by
  have hbuf' : c.pcapngBuffer = s.header ++ (s.body.flatten ++ rest) := by
    simp [hbuf, Section.bytes, Section.blocks]
  have hturn := turn_block s.header_encoded hbuf'
    (endianAt_header s.header_encoded.min hbuf' s.header_type s.header_magic)
    (fun _ => s.header_type)
  rw [record_header s.header_type] at hturn
  obtain ⟨d, hrun, hdbuf, hdend, hheader, hcomplete⟩ :=
    run_body rest
      (c := ⟨s.body.flatten ++ rest, s.header, some s.endian, false⟩) s.body_encoded s.body_type
      rfl rfl
  refine ⟨d, ?_, hdbuf, hdend, hheader, hcomplete⟩
  rw [run_of_emit hturn, hrun]
  rfl

/-- A stream of sections at the front: all its blocks, and the replay header of the last. -/
theorem run_sections : ∀ {sections : List Section} (hne : sections ≠ []) {c : Framer},
    c.pcapngBuffer = sections.flatMap Section.bytes →
    ∃ d : Framer, c.run = (d, sections.flatMap Section.blocks) ∧ d.pcapngBuffer = [] ∧
      d.pcapngEndian = some (sections.getLast hne).endian ∧
      d.pcapngHeader = (sections.getLast hne).replay ∧
      d.pcapngHeaderComplete = (sections.getLast hne).hasPacket
  | [s], _, c, hbuf => by
    obtain ⟨d, hrun, hdbuf, hd⟩ := run_section s [] (c := c) (by simpa using hbuf)
    refine ⟨d, ?_, hdbuf, hd⟩
    rw [hrun, run_short (c := d) (by rw [hdbuf]; decide)]
    simp
  | s :: t :: sections, _, c, hbuf => by
    obtain ⟨d, hrun, hdbuf, -⟩ := run_section s
      ((t :: sections).flatMap Section.bytes) (c := c) (by simpa using hbuf)
    obtain ⟨e, hrun', he⟩ := run_sections (List.cons_ne_nil t sections) hdbuf
    refine ⟨e, ?_, he⟩
    rw [hrun, hrun']
    simp

end Framer

open Framer

/-- **Round trip.** The chunks of a well-formed stream come back as its blocks. -/
theorem pcapngFeed_roundTrip {sections : List Section} (hne : sections ≠ [])
    {chunks : List (List UInt8)} (hchunks : chunks.flatten = sections.flatMap Section.bytes) :
    (pcapngFeed {} chunks).2 = sections.flatMap Section.blocks ∧
      (pcapngFeed {} chunks).1.pcapngBuffer = [] ∧
      (pcapngFeed {} chunks).1.pcapngHeader = (sections.getLast hne).replay ∧
      ((pcapngFeed {} chunks).1.pcapngHeaderComplete = true ↔
        ∃ block ∈ (sections.getLast hne).body, isPacket (sections.getLast hne).endian block) := by
  obtain ⟨hagree, hblocks⟩ := pcapngFeed_agree settled_initial chunks
  obtain ⟨d, hrun, hbuf, hend, hheader, hcomplete⟩ :=
    run_sections hne (c := extend {} chunks.flatten) (by simpa using hchunks)
  rw [hrun] at hagree hblocks
  have hknown : (pcapngFeed {} chunks).1.pcapngEndian ≠ none := by
    rw [hagree.endian, hend]
    exact Option.some_ne_none _
  refine ⟨hblocks, (hagree.buffer hknown).trans hbuf, hagree.header.trans hheader, ?_⟩
  rw [hagree.complete, hcomplete, Section.hasPacket, List.any_eq_true]

/-- A little-endian section with one packet block, then an empty big-endian one. -/
def exampleSections : List Section :=
  [{ endian := .little
     header := [0x0a, 0x0d, 0x0d, 0x0a, 16, 0, 0, 0, 0x4d, 0x3c, 0x2b, 0x1a, 16, 0, 0, 0]
     body := [[6, 0, 0, 0, 12, 0, 0, 0, 12, 0, 0, 0]]
     header_type := by decide
     header_magic := by decide
     header_encoded := ⟨by decide, by decide, by decide, by decide⟩
     body_encoded := by
       simp only [List.mem_singleton, forall_eq]
       exact ⟨by decide, by decide, by decide, by decide⟩
     body_type := by decide },
   { endian := .big
     header := [0x0a, 0x0d, 0x0d, 0x0a, 0, 0, 0, 16, 0x1a, 0x2b, 0x3c, 0x4d, 0, 0, 0, 16]
     body := []
     header_type := by decide
     header_magic := by decide
     header_encoded := ⟨by decide, by decide, by decide, by decide⟩
     body_encoded := by simp
     body_type := by simp }]

/-- The stream of `exampleSections` in three chunks, one cut inside a magic and one inside a
trailing length. -/
theorem pcapngFeed_roundTrip_example :
    (pcapngFeed {} [(exampleSections.flatMap Section.bytes).take 10,
      ((exampleSections.flatMap Section.bytes).drop 10).take 16,
      (exampleSections.flatMap Section.bytes).drop 26]).1.pcapngBuffer = [] :=
  (pcapngFeed_roundTrip (show exampleSections ≠ [] from List.cons_ne_nil _ _) (by decide)).2.1

end WlanpiCore.Streaming
