import WlanpiCore.Lib.Bytes

/-!
# The pcapng framer

`ConnectionManager._pcapng_blocks` cuts dumpcap's stdout, which arrives in arbitrary chunks, into
complete pcapng blocks. The framer lives in four entries of the owner's client record: the bytes
not yet framed, the byte order of the current section, and the section's replay header (its
Section Header Block and every block before the first packet block) with the flag that says it
is complete.

`Framer.turn` is one turn of the `while` loop and `Framer.run` the loop. Every turn that goes on
drops at least one byte (`turn_again_lt`, `turn_emit_lt`), so the loop ends; `run_eq` is its
unfolding, and the later modules use nothing else.
-/

namespace WlanpiCore.Streaming

open Bytes

abbrev Block := List UInt8

/-- `_PCAPNG_SECTION_HEADER`, a palindrome: the same bytes in either byte order. -/
def sectionHeader : List UInt8 := [0x0a, 0x0d, 0x0d, 0x0a]

/-- `_PCAPNG_PACKET_BLOCK_TYPES`. -/
def packetBlockTypes : List Nat := [0x00000002, 0x00000003, 0x00000006]

/-- The byte-order magic of a Section Header Block as it is written in each byte order. -/
def byteOrderMagic : Endian → List UInt8
  | .little => [0x4d, 0x3c, 0x2b, 0x1a]
  | .big => [0x1a, 0x2b, 0x3c, 0x4d]

/-- The framer's part of a client record. -/
structure Framer where
  pcapngBuffer : List UInt8 := []
  pcapngHeader : List UInt8 := []
  pcapngEndian : Option Endian := none
  pcapngHeaderComplete : Bool := false
  deriving DecidableEq, Repr

namespace Framer

/-- How one turn of the loop ends. -/
inductive Turn where
  /-- The loop condition fails, or the turn breaks out to wait for more bytes. -/
  | leave (c : Framer)
  | again (c : Framer)
  | emit (c : Framer) (block : Block)

/-- `buffer.extend(chunk)`. -/
def extend (c : Framer) (chunk : List UInt8) : Framer :=
  { c with pcapngBuffer := c.pcapngBuffer ++ chunk }

/-- Drop one byte and look for the next section: what every malformed block leads to. -/
def skip (c : Framer) : Framer :=
  { c with pcapngBuffer := c.pcapngBuffer.drop 1, pcapngEndian := none }

/-- The byte order of the block at the front: its own for a Section Header Block, the current
section's for any other. `none` is a section header whose magic is neither. -/
def endianAt (c : Framer) : Option Endian :=
  if slice c.pcapngBuffer 0 4 = sectionHeader then
    if slice c.pcapngBuffer 8 12 = byteOrderMagic .little then some .little
    else if slice c.pcapngBuffer 8 12 = byteOrderMagic .big then some .big
    else none
  else c.pcapngEndian

/-- What a framed block does to the replay header: a section header starts a new one, a packet
block completes it, and any block before that is added to it. -/
def record (c : Framer) (endian : Endian) (block : Block) : Framer :=
  let c := if slice block 0 4 = sectionHeader then
    { c with pcapngHeader := [], pcapngHeaderComplete := false } else c
  if c.pcapngHeaderComplete then c
  else if fromBytes endian (slice block 0 4) ∈ packetBlockTypes then
    { c with pcapngHeaderComplete := true }
  else { c with pcapngHeader := c.pcapngHeader ++ block }

/-- Take a complete block of `total` bytes off the buffer. -/
def accept (c : Framer) (endian : Endian) (total : Nat) : Framer :=
  { c with pcapngBuffer := c.pcapngBuffer.drop total, pcapngEndian := some endian }.record endian
    (c.pcapngBuffer.take total)

/-- The rest of a turn once the byte order is known: check both lengths and cut the block. -/
def cut (c : Framer) (endian : Endian) : Turn :=
  let total := fromBytes endian (slice c.pcapngBuffer 4 8)
  if total < 12 ∨ total % 4 ≠ 0 then .again c.skip
  else if c.pcapngBuffer.length < total then .leave { c with pcapngEndian := some endian }
  else if fromBytes endian (slice c.pcapngBuffer (total - 4) total) ≠ total then .again c.skip
  else .emit (c.accept endian total) (c.pcapngBuffer.take total)

/-- A turn with at least twelve bytes at the front of the buffer. -/
def frame (c : Framer) : Turn :=
  match c.endianAt with
  | none => .again c.skip
  | some endian => c.cut endian

/-- One turn of the loop. Without a byte order the front of the buffer is first moved to the next
section header; when there is none only the last three bytes can begin one. -/
def turn (c : Framer) : Turn :=
  if c.pcapngBuffer.length < 12 then .leave c
  else match c.pcapngEndian with
    | some _ => c.frame
    | none =>
      match find sectionHeader c.pcapngBuffer with
      | none => .leave { c with pcapngBuffer := c.pcapngBuffer.drop (c.pcapngBuffer.length - 3) }
      | some start =>
        let c := { c with pcapngBuffer := c.pcapngBuffer.drop start }
        if c.pcapngBuffer.length < 12 then .leave c else c.frame

/-- The loop, with a bound on its turns. -/
def runFuel : Nat → Framer → Framer × List Block
  | 0, c => (c, [])
  | n + 1, c =>
    match c.turn with
    | .leave c => (c, [])
    | .again c => runFuel n c
    | .emit c block => ((runFuel n c).1, block :: (runFuel n c).2)

/-- The `while` loop of `_pcapng_blocks`. Each turn that goes on drops a byte, so one turn more
than there are bytes is enough (`run_eq`). -/
def run (c : Framer) : Framer × List Block := runFuel (c.pcapngBuffer.length + 1) c

end Framer

/-- `_pcapng_blocks`: frame what has arrived so far, given one more chunk. -/
def pcapngBlocks (client : Framer) (chunk : List UInt8) : Framer × List Block :=
  (client.extend chunk).run

/-- The chunks of a stream in order: the client after the last, and all the lists concatenated. -/
def pcapngFeed (client : Framer) : List (List UInt8) → Framer × List Block
  | [] => (client, [])
  | chunk :: chunks =>
    let first := pcapngBlocks client chunk
    let rest := pcapngFeed first.1 chunks
    (rest.1, first.2 ++ rest.2)

namespace Framer

/-! ## The loop ends -/

@[simp] theorem skip_length (c : Framer) : c.skip.pcapngBuffer.length =
    c.pcapngBuffer.length - 1 := by
  simp [skip]

@[simp] theorem record_buffer (c : Framer) (endian : Endian) (block : Block) :
    (c.record endian block).pcapngBuffer = c.pcapngBuffer := by
  simp only [record]
  split_ifs <;> rfl

@[simp] theorem record_endian (c : Framer) (endian : Endian) (block : Block) :
    (c.record endian block).pcapngEndian = c.pcapngEndian := by
  simp only [record]
  split_ifs <;> rfl

@[simp] theorem accept_buffer (c : Framer) (endian : Endian) (total : Nat) :
    (c.accept endian total).pcapngBuffer = c.pcapngBuffer.drop total := by
  simp [accept]

@[simp] theorem accept_endian (c : Framer) (endian : Endian) (total : Nat) :
    (c.accept endian total).pcapngEndian = some endian := by
  simp [accept]

theorem frame_of_none {c : Framer} (h : c.endianAt = none) : c.frame = .again c.skip := by
  simp only [frame, h]

theorem frame_of_some {c : Framer} {endian : Endian} (h : c.endianAt = some endian) :
    c.frame = c.cut endian := by
  simp only [frame, h]

/-- What `cut` can do. -/
theorem cut_cases (c : Framer) (endian : Endian) :
    let total := fromBytes endian (slice c.pcapngBuffer 4 8)
    c.cut endian = .again c.skip ∨
      (12 ≤ total ∧ total % 4 = 0 ∧ c.pcapngBuffer.length < total ∧
        c.cut endian = .leave { c with pcapngEndian := some endian }) ∨
      (12 ≤ total ∧ total % 4 = 0 ∧ total ≤ c.pcapngBuffer.length ∧
        fromBytes endian (slice c.pcapngBuffer (total - 4) total) = total ∧
        c.cut endian = .emit (c.accept endian total) (c.pcapngBuffer.take total)) := by
  simp only [cut]
  split_ifs with h1 h2 h3
  · exact Or.inl rfl
  · exact Or.inr (Or.inl ⟨by omega, by omega, h2, rfl⟩)
  · exact Or.inl rfl
  · exact Or.inr (Or.inr ⟨by omega, by omega, by omega, not_not.1 h3, rfl⟩)

theorem frame_again_lt {c d : Framer} (hc : c.pcapngBuffer ≠ []) (h : c.frame = .again d) :
    d.pcapngBuffer.length < c.pcapngBuffer.length := by
  have hpos : 0 < c.pcapngBuffer.length := List.length_pos_iff.2 hc
  have hskip : c.skip.pcapngBuffer.length < c.pcapngBuffer.length := by simp; omega
  rcases Option.eq_none_or_eq_some c.endianAt with he | ⟨endian, he⟩
  · rw [frame_of_none he] at h
    cases h
    exact hskip
  · rw [frame_of_some he] at h
    rcases c.cut_cases endian with hcut | ⟨-, -, -, hcut⟩ | ⟨-, -, -, -, hcut⟩ <;>
      rw [hcut] at h <;>
      cases h
    exact hskip

theorem frame_emit_lt {c d : Framer} {block : Block} (hc : c.pcapngBuffer ≠ [])
    (h : c.frame = .emit d block) : d.pcapngBuffer.length < c.pcapngBuffer.length := by
  have hpos : 0 < c.pcapngBuffer.length := List.length_pos_iff.2 hc
  rcases Option.eq_none_or_eq_some c.endianAt with he | ⟨endian, he⟩
  · rw [frame_of_none he] at h
    cases h
  · rw [frame_of_some he] at h
    rcases c.cut_cases endian with hcut | ⟨-, -, -, hcut⟩ | ⟨h12, -, -, -, hcut⟩ <;>
      rw [hcut] at h <;> cases h
    simp only [accept_buffer, List.length_drop]
    omega

theorem turn_short {c : Framer} (h : c.pcapngBuffer.length < 12) : c.turn = .leave c := if_pos h

theorem turn_known {c : Framer} {e : Endian} (h : 12 ≤ c.pcapngBuffer.length)
    (he : c.pcapngEndian = some e) : c.turn = c.frame := by
  unfold turn
  rw [if_neg (by omega), he]

/-- No section header in sight. -/
theorem turn_lost {c : Framer} (h : 12 ≤ c.pcapngBuffer.length) (he : c.pcapngEndian = none)
    (hf : find sectionHeader c.pcapngBuffer = none) :
    c.turn = .leave { c with pcapngBuffer := c.pcapngBuffer.drop (c.pcapngBuffer.length - 3) } := by
  unfold turn
  rw [if_neg (by omega), he]
  simp only [hf]

theorem turn_found {c : Framer} {start : Nat} (h : 12 ≤ c.pcapngBuffer.length)
    (he : c.pcapngEndian = none) (hf : find sectionHeader c.pcapngBuffer = some start) :
    c.turn = if (c.pcapngBuffer.drop start).length < 12
      then .leave { c with pcapngBuffer := c.pcapngBuffer.drop start }
      else { c with pcapngBuffer := c.pcapngBuffer.drop start }.frame := by
  unfold turn
  rw [if_neg (by omega), he]
  simp only [hf]

/-- What one turn can do: wait for bytes, or frame what is left after moving to the next section
header. -/
theorem turn_cases (c : Framer) :
    (∃ d, c.turn = .leave d) ∨
      ∃ start, 12 ≤ (c.pcapngBuffer.drop start).length ∧
        c.turn = { c with pcapngBuffer := c.pcapngBuffer.drop start }.frame := by
  by_cases hlen : c.pcapngBuffer.length < 12
  · exact Or.inl ⟨c, turn_short hlen⟩
  rw [not_lt] at hlen
  rcases Option.eq_none_or_eq_some c.pcapngEndian with hend | ⟨e, hend⟩
  · cases hfind : find sectionHeader c.pcapngBuffer with
    | none => exact Or.inl ⟨_, turn_lost hlen hend hfind⟩
    | some start =>
      have hturn := turn_found hlen hend hfind
      by_cases hlen' : (c.pcapngBuffer.drop start).length < 12
      · rw [if_pos hlen'] at hturn
        exact Or.inl ⟨_, hturn⟩
      · rw [if_neg hlen'] at hturn
        exact Or.inr ⟨start, by omega, hturn⟩
  · exact Or.inr ⟨0, hlen, turn_known hlen hend⟩

theorem turn_again_lt {c d : Framer} (h : c.turn = .again d) :
    d.pcapngBuffer.length < c.pcapngBuffer.length := by
  rcases c.turn_cases with ⟨e, he⟩ | ⟨start, hlen, hturn⟩
  · rw [he] at h; cases h
  · rw [hturn] at h
    have hne : c.pcapngBuffer.drop start ≠ [] := List.length_pos_iff.1 (by omega)
    have := frame_again_lt (c := { c with pcapngBuffer := c.pcapngBuffer.drop start }) hne h
    simp only [List.length_drop] at this
    omega

theorem turn_emit_lt {c d : Framer} {block : Block} (h : c.turn = .emit d block) :
    d.pcapngBuffer.length < c.pcapngBuffer.length := by
  rcases c.turn_cases with ⟨e, he⟩ | ⟨start, hlen, hturn⟩
  · rw [he] at h; cases h
  · rw [hturn] at h
    have hne : c.pcapngBuffer.drop start ≠ [] := List.length_pos_iff.1 (by omega)
    have := frame_emit_lt (c := { c with pcapngBuffer := c.pcapngBuffer.drop start }) hne h
    simp only [List.length_drop] at this
    omega

/-- Any bound above the number of buffered bytes gives the same run. -/
theorem runFuel_eq_run : ∀ (n : Nat) (c : Framer), c.pcapngBuffer.length < n →
    runFuel n c = run c := by
  have agree : ∀ (n m : Nat) (c : Framer), c.pcapngBuffer.length < n → c.pcapngBuffer.length < m →
      runFuel n c = runFuel m c := by
    intro n
    induction n with
    | zero => intro m c hn; omega
    | succ n ih =>
      intro m c hn hm
      obtain ⟨m, rfl⟩ : ∃ k, m = k + 1 := ⟨m - 1, by omega⟩
      simp only [runFuel]
      cases hturn : c.turn with
      | leave d => rfl
      | again d =>
        have := turn_again_lt hturn
        exact ih m d (by omega) (by omega)
      | emit d block =>
        have := turn_emit_lt hturn
        simp only [ih m d (by omega) (by omega)]
  intro n c hn
  exact agree n _ c hn (by omega)

/-- The unfolding of the loop. -/
theorem run_eq (c : Framer) :
    c.run = match c.turn with
      | .leave d => (d, [])
      | .again d => d.run
      | .emit d block => (d.run.1, block :: d.run.2) := by
  conv_lhs => unfold run
  simp only [runFuel]
  cases hturn : c.turn with
  | leave d => rfl
  | again d => exact runFuel_eq_run _ d (turn_again_lt hturn)
  | emit d block => simp only [runFuel_eq_run _ d (turn_emit_lt hturn)]

theorem run_of_leave {c d : Framer} (h : c.turn = .leave d) : c.run = (d, []) := by
  rw [run_eq, h]

theorem run_of_again {c d : Framer} (h : c.turn = .again d) : c.run = d.run := by
  rw [run_eq, h]

theorem run_of_emit {c d : Framer} {block : Block} (h : c.turn = .emit d block) :
    c.run = (d.run.1, block :: d.run.2) := by
  rw [run_eq, h]

end Framer

end WlanpiCore.Streaming
