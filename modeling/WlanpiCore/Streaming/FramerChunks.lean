import WlanpiCore.Streaming.Framer

/-!
# The framer does not see the chunk boundaries

Cutting a byte string into chunks in two ways gives the same blocks, the same replay header and
the same flag, on arbitrary bytes.

The proof compares a run that stops for lack of bytes and is continued with `bs` (`d.extend bs`)
with the run that had `bs` from the start (`c.extend bs`). Turns that go on do the same with more
bytes behind them (`turn_again_extend`, `turn_emit_extend`). A turn that stops either kept every
byte the next decision needs, and then the two runs are equal, or dropped junk in which no section
header can begin, and then they differ in the junk they still hold only (`leave_extend`).
`run_extend` puts the turns together and `pcapngFeed_eq` the chunks.
-/

namespace WlanpiCore.Streaming

open Bytes

namespace Framer

/-- Two clients that differ at most in junk: bytes held while no section has been found. -/
structure Agree (c d : Framer) : Prop where
  header : c.pcapngHeader = d.pcapngHeader
  complete : c.pcapngHeaderComplete = d.pcapngHeaderComplete
  endian : c.pcapngEndian = d.pcapngEndian
  buffer : c.pcapngEndian ≠ none → c.pcapngBuffer = d.pcapngBuffer

@[refl] theorem Agree.refl (c : Framer) : Agree c c := ⟨rfl, rfl, rfl, fun _ => rfl⟩

theorem Agree.trans {c d e : Framer} (h : Agree c d) (h' : Agree d e) : Agree c e :=
  ⟨h.header.trans h'.header, h.complete.trans h'.complete, h.endian.trans h'.endian,
    fun hc => (h.buffer hc).trans (h'.buffer (h.endian ▸ hc))⟩

theorem Agree.symm {c d : Framer} (h : Agree c d) : Agree d c :=
  ⟨h.header.symm, h.complete.symm, h.endian.symm, fun hd => (h.buffer (h.endian ▸ hd)).symm⟩

/-- The two runs frame the same blocks and leave clients that agree. -/
def SameRun (c d : Framer) : Prop := Agree c.run.1 d.run.1 ∧ c.run.2 = d.run.2

theorem SameRun.of_turn {c d : Framer} (h : c.turn = d.turn) : SameRun c d := by
  unfold SameRun
  rw [run_eq c, run_eq d, h]
  exact ⟨Agree.refl _, rfl⟩

theorem SameRun.trans {c d e : Framer} (h : SameRun c d) (h' : SameRun d e) : SameRun c e :=
  ⟨h.1.trans h'.1, h.2.trans h'.2⟩

theorem SameRun.symm {c d : Framer} (h : SameRun c d) : SameRun d c := ⟨h.1.symm, h.2.symm⟩

/-! ## More bytes behind a turn that goes on -/

@[simp] theorem extend_buffer (c : Framer) (bs : List UInt8) :
    (c.extend bs).pcapngBuffer = c.pcapngBuffer ++ bs := rfl

@[simp] theorem extend_endian (c : Framer) (bs : List UInt8) :
    (c.extend bs).pcapngEndian = c.pcapngEndian := rfl

@[simp] theorem extend_nil (c : Framer) : c.extend [] = c := by simp [extend]

theorem extend_extend (c : Framer) (as bs : List UInt8) :
    (c.extend as).extend bs = c.extend (as ++ bs) := by simp [extend]

theorem endianAt_extend {c : Framer} (h : 12 ≤ c.pcapngBuffer.length) (bs : List UInt8) :
    (c.extend bs).endianAt = c.endianAt := by
  simp only [endianAt, extend_buffer, extend_endian, slice_append h,
    slice_append (show 4 ≤ c.pcapngBuffer.length by omega)]

theorem skip_extend {c : Framer} (h : 12 ≤ c.pcapngBuffer.length) (bs : List UInt8) :
    (c.extend bs).skip = c.skip.extend bs := by
  simp only [skip, extend]
  rw [List.drop_append_of_le_length (by omega)]

theorem record_extend (c : Framer) (endian : Endian) (block : Block) (bs : List UInt8) :
    (c.extend bs).record endian block = (c.record endian block).extend bs := by
  obtain ⟨buffer, header, e, complete⟩ := c
  cases complete <;> simp only [record, extend] <;> split_ifs <;> rfl

theorem accept_extend {c : Framer} {total : Nat} (h : total ≤ c.pcapngBuffer.length)
    (endian : Endian) (bs : List UInt8) :
    (c.extend bs).accept endian total = (c.accept endian total).extend bs := by
  simp only [accept, ← record_extend, extend_buffer]
  rw [List.take_append_of_le_length h, List.drop_append_of_le_length h]
  rfl

theorem cut_again_extend {c d : Framer} {endian : Endian} (h : 12 ≤ c.pcapngBuffer.length)
    (bs : List UInt8) (hcut : c.cut endian = .again d) :
    (c.extend bs).cut endian = .again (d.extend bs) := by
  simp only [cut, extend_buffer, slice_append (show 8 ≤ c.pcapngBuffer.length by omega),
    skip_extend h] at hcut ⊢
  split_ifs at hcut with h1 h2 h3
  · rw [if_pos h1]
    cases hcut
    rfl
  · have hle : fromBytes endian (slice c.pcapngBuffer 4 8) ≤ c.pcapngBuffer.length := by omega
    rw [if_neg h1, if_neg (by simp only [List.length_append]; omega), slice_append hle, if_pos h3]
    cases hcut
    rfl

theorem cut_emit_extend {c d : Framer} {endian : Endian} {block : Block}
    (h : 12 ≤ c.pcapngBuffer.length) (bs : List UInt8) (hcut : c.cut endian = .emit d block) :
    (c.extend bs).cut endian = .emit (d.extend bs) block := by
  simp only [cut, extend_buffer, slice_append (show 8 ≤ c.pcapngBuffer.length by omega)] at hcut ⊢
  split_ifs at hcut with h1 h2 h3
  have hle : fromBytes endian (slice c.pcapngBuffer 4 8) ≤ c.pcapngBuffer.length := by omega
  rw [if_neg h1, if_neg (by simp only [List.length_append]; omega), slice_append hle, if_neg h3,
    List.take_append_of_le_length hle, accept_extend hle]
  cases hcut
  rfl

theorem frame_again_extend {c d : Framer} (h : 12 ≤ c.pcapngBuffer.length) (bs : List UInt8)
    (hframe : c.frame = .again d) : (c.extend bs).frame = .again (d.extend bs) := by
  have hat := endianAt_extend h bs
  rcases Option.eq_none_or_eq_some c.endianAt with he | ⟨endian, he⟩
  · rw [frame_of_none he] at hframe
    cases hframe
    rw [frame_of_none (hat.trans he), skip_extend h]
  · rw [frame_of_some he] at hframe
    rw [frame_of_some (hat.trans he)]
    exact cut_again_extend h bs hframe

theorem frame_emit_extend {c d : Framer} {block : Block} (h : 12 ≤ c.pcapngBuffer.length)
    (bs : List UInt8) (hframe : c.frame = .emit d block) :
    (c.extend bs).frame = .emit (d.extend bs) block := by
  have hat := endianAt_extend h bs
  rcases Option.eq_none_or_eq_some c.endianAt with he | ⟨endian, he⟩
  · rw [frame_of_none he] at hframe
    cases hframe
  · rw [frame_of_some he] at hframe
    rw [frame_of_some (hat.trans he)]
    exact cut_emit_extend h bs hframe

/-- A block that is not complete yet: only the byte order was recorded, and what it was read from
is still at the front, so the frame tried again with more bytes is the frame from the start. -/
theorem frame_leave_extend {c d : Framer} (h : 12 ≤ c.pcapngBuffer.length) (bs : List UInt8)
    (hframe : c.frame = .leave d) :
    (c.extend bs).frame = (d.extend bs).frame ∧ 12 ≤ d.pcapngBuffer.length ∧
      ∃ e, d.pcapngEndian = some e := by
  rcases Option.eq_none_or_eq_some c.endianAt with he | ⟨endian, he⟩
  · rw [frame_of_none he] at hframe
    cases hframe
  · rw [frame_of_some he] at hframe
    rcases c.cut_cases endian with hcut | ⟨-, -, -, hcut⟩ | ⟨-, -, -, -, hcut⟩ <;>
      rw [hcut] at hframe <;> cases hframe
    refine ⟨?_, h, endian, rfl⟩
    have hd : { c with pcapngEndian := some endian }.endianAt = some endian := by
      simp only [endianAt] at he ⊢
      split_ifs at he ⊢ <;> first | exact he | rfl
    rw [frame_of_some ((endianAt_extend h bs).trans he),
      frame_of_some ((endianAt_extend (c := { c with pcapngEndian := some endian }) h bs).trans hd)]
    rfl

/-! ## Turns -/

/-- A turn that frames does so with any bytes behind it. -/
theorem turn_frame_extend {c : Framer} (hgo : ∀ d, c.turn ≠ .leave d) :
    ∃ c' : Framer, 12 ≤ c'.pcapngBuffer.length ∧ c.turn = c'.frame ∧
      ∀ bs, (c.extend bs).turn = (c'.extend bs).frame := by
  by_cases hlen : c.pcapngBuffer.length < 12
  · exact absurd (turn_short hlen) (hgo c)
  rw [not_lt] at hlen
  have hlen' (bs : List UInt8) : 12 ≤ (c.extend bs).pcapngBuffer.length := by
    simp only [extend_buffer, List.length_append]
    omega
  rcases Option.eq_none_or_eq_some c.pcapngEndian with hend | ⟨e, hend⟩
  · cases hfind : find sectionHeader c.pcapngBuffer with
    | none => exact absurd (turn_lost hlen hend hfind) (hgo _)
    | some start =>
      have hturn := turn_found hlen hend hfind
      by_cases hshort : (c.pcapngBuffer.drop start).length < 12
      · rw [if_pos hshort] at hturn
        exact absurd hturn (hgo _)
      · rw [if_neg hshort] at hturn
        refine ⟨{ c with pcapngBuffer := c.pcapngBuffer.drop start }, by simpa using hshort, hturn,
          fun bs => ?_⟩
        have hle : start ≤ c.pcapngBuffer.length := by
          simp only [List.length_drop] at hshort
          omega
        have hdrop : (c.pcapngBuffer ++ bs).drop start = c.pcapngBuffer.drop start ++ bs :=
          List.drop_append_of_le_length hle
        rw [turn_found (hlen' bs) hend (find_append bs hfind), if_neg]
        · simp only [extend, hdrop]
        · simp only [extend_buffer, hdrop, List.length_append]
          omega
  · exact ⟨c, hlen, turn_known hlen hend, fun bs => turn_known (hlen' bs) hend⟩

theorem turn_again_extend {c d : Framer} (bs : List UInt8) (h : c.turn = .again d) :
    (c.extend bs).turn = .again (d.extend bs) := by
  obtain ⟨c', hlen, hturn, hext⟩ :=
    turn_frame_extend (c := c) (fun e he => by rw [h] at he; cases he)
  rw [hext bs]
  exact frame_again_extend hlen bs (hturn ▸ h)

theorem turn_emit_extend {c d : Framer} {block : Block} (bs : List UInt8)
    (h : c.turn = .emit d block) : (c.extend bs).turn = .emit (d.extend bs) block := by
  obtain ⟨c', hlen, hturn, hext⟩ :=
    turn_frame_extend (c := c) (fun e he => by rw [h] at he; cases he)
  rw [hext bs]
  exact frame_emit_extend hlen bs (hturn ▸ h)

/-- A run on too few bytes waits. -/
theorem run_short {c : Framer} (h : c.pcapngBuffer.length < 12) : c.run = (c, []) :=
  run_of_leave (turn_short h)

/-- A section header at the front needs no search. -/
theorem turn_aligned {c : Framer} (h : 12 ≤ c.pcapngBuffer.length) (hend : c.pcapngEndian = none)
    (hpre : sectionHeader <+: c.pcapngBuffer) : c.turn = c.frame := by
  rw [turn_found h hend (find_zero hpre), if_neg (by simpa using h)]
  rfl

/-- Without a byte order, a run that waits for the rest of a section header only moves to it. -/
theorem run_move {c : Framer} {start : Nat} (hend : c.pcapngEndian = none)
    (hfind : find sectionHeader c.pcapngBuffer = some start) :
    SameRun c { c with pcapngBuffer := c.pcapngBuffer.drop start } := by
  set d : Framer := { c with pcapngBuffer := c.pcapngBuffer.drop start } with hd
  have hagree : Agree c d := ⟨rfl, rfl, rfl, fun h => absurd hend h⟩
  by_cases hlen : c.pcapngBuffer.length < 12
  · have hlen' : d.pcapngBuffer.length < 12 := by
      simp only [hd, List.length_drop]
      omega
    rw [SameRun, run_short hlen, run_short hlen']
    exact ⟨hagree, rfl⟩
  rw [not_lt] at hlen
  have hturn := turn_found hlen hend hfind
  by_cases hshort : (c.pcapngBuffer.drop start).length < 12
  · rw [if_pos hshort] at hturn
    rw [SameRun, run_of_leave hturn, run_short (c := d) hshort]
    exact ⟨Agree.refl d, rfl⟩
  · rw [if_neg hshort] at hturn
    refine SameRun.of_turn (hturn.trans ?_)
    exact (turn_aligned (c := d) (not_lt.1 hshort) hend (prefix_drop_of_find hfind)).symm

/-- Junk in which no section header can begin was dropped. -/
theorem lost_extend {c : Framer} (bs : List UInt8) (hend : c.pcapngEndian = none)
    (hfind : find sectionHeader c.pcapngBuffer = none) :
    SameRun (c.extend bs)
      ({ c with pcapngBuffer := c.pcapngBuffer.drop (c.pcapngBuffer.length - 3) }.extend bs) := by
  set kept := c.pcapngBuffer.drop (c.pcapngBuffer.length - 3)
  set d : Framer := { c with pcapngBuffer := kept }
  have hsearch := find_append_of_none bs hfind
  change find sectionHeader (c.pcapngBuffer ++ bs) =
    (find sectionHeader (kept ++ bs)).map (· + (c.pcapngBuffer.length - 3)) at hsearch
  cases hkept : find sectionHeader (kept ++ bs) with
  | some n =>
    rw [hkept] at hsearch
    -- Both runs move to the same section header.
    have hdrop : (c.pcapngBuffer ++ bs).drop (n + (c.pcapngBuffer.length - 3)) =
        (kept ++ bs).drop n := by
      rw [Nat.add_comm, ← List.drop_drop, List.drop_append_of_le_length (by omega)]
    have hc := run_move (c := c.extend bs) hend hsearch
    have hd := run_move (c := d.extend bs) hend hkept
    simp only [extend_buffer, hdrop] at hc
    exact SameRun.trans hc (SameRun.symm hd)
  | none =>
    rw [hkept] at hsearch
    -- Neither run frames anything.
    have hlost (e : Framer) (he : e.pcapngEndian = none)
        (hf : find sectionHeader e.pcapngBuffer = none) :
        Agree e e.run.1 ∧ e.run.2 = [] := by
      by_cases hlen : e.pcapngBuffer.length < 12
      · rw [run_short hlen]
        exact ⟨Agree.refl e, rfl⟩
      · rw [run_of_leave (turn_lost (not_lt.1 hlen) he hf)]
        exact ⟨⟨rfl, rfl, rfl, fun h => absurd he h⟩, rfl⟩
    obtain ⟨hc, hcb⟩ := hlost (c.extend bs) hend hsearch
    obtain ⟨hd, hdb⟩ := hlost (d.extend bs) hend hkept
    have hcd : Agree (c.extend bs) (d.extend bs) := ⟨rfl, rfl, rfl, fun h => absurd hend h⟩
    exact ⟨hc.symm.trans (hcd.trans hd), hcb.trans hdb.symm⟩

/-- **A run that stopped and is continued does what it would have done with all the bytes.** -/
theorem leave_extend {c d : Framer} (bs : List UInt8) (h : c.turn = .leave d) :
    SameRun (c.extend bs) (d.extend bs) := by
  by_cases hlen : c.pcapngBuffer.length < 12
  · rw [turn_short hlen] at h
    cases h
    exact SameRun.of_turn rfl
  rw [not_lt] at hlen
  -- A frame that waited recorded the byte order and is tried again.
  have hframe {c' : Framer} (h12 : 12 ≤ c'.pcapngBuffer.length) (hleave : c'.frame = .leave d) :
      (c'.extend bs).frame = (d.extend bs).turn := by
    obtain ⟨heq, hd12, e, he⟩ := frame_leave_extend h12 bs hleave
    rw [heq, turn_known (c := d.extend bs) _ he]
    simp only [extend_buffer, List.length_append]
    omega
  rcases Option.eq_none_or_eq_some c.pcapngEndian with hend | ⟨e, hend⟩
  · cases hfind : find sectionHeader c.pcapngBuffer with
    | none =>
      rw [turn_lost hlen hend hfind] at h
      cases h
      exact lost_extend bs hend hfind
    | some start =>
      have hle : start ≤ c.pcapngBuffer.length := by
        have := (prefix_drop_of_find hfind).length_le
        simp only [sectionHeader, List.length_drop, List.length_cons, List.length_nil] at this
        omega
      have hmove := run_move (c := c.extend bs) hend (find_append bs hfind)
      simp only [extend_buffer, List.drop_append_of_le_length hle] at hmove
      refine hmove.trans ?_
      rw [turn_found hlen hend hfind] at h
      split_ifs at h with hshort
      · cases h
        exact SameRun.of_turn rfl
      · set moved : Framer := { c with pcapngBuffer := c.pcapngBuffer.drop start }
        have h12 : 12 ≤ moved.pcapngBuffer.length := not_lt.1 hshort
        have hturn : (moved.extend bs).turn = (moved.extend bs).frame := by
          refine turn_aligned ?_ hend
            ((prefix_drop_of_find hfind).trans (List.prefix_append _ _))
          simp only [extend_buffer, List.length_append]
          omega
        exact SameRun.of_turn (hturn.trans (hframe h12 h))
  · have hlen' : 12 ≤ (c.extend bs).pcapngBuffer.length := by
      simp only [extend_buffer, List.length_append]
      omega
    refine SameRun.of_turn ?_
    rw [turn_known hlen' hend]
    exact hframe hlen ((turn_known hlen hend).symm.trans h)

/-- Running on some bytes and then on more is running on all of them. -/
theorem run_extend (c : Framer) (bs : List UInt8) :
    Agree (c.extend bs).run.1 (c.run.1.extend bs).run.1 ∧
      (c.extend bs).run.2 = c.run.2 ++ (c.run.1.extend bs).run.2 := by
  induction hn : c.pcapngBuffer.length using Nat.strongRecOn generalizing c with
  | _ n ih =>
    cases hturn : c.turn with
    | leave d =>
      rw [run_of_leave hturn]
      exact leave_extend bs hturn
    | again d =>
      rw [run_of_again hturn, run_of_again (turn_again_extend bs hturn)]
      exact ih _ (hn ▸ turn_again_lt hturn) d rfl
    | emit d block =>
      rw [run_of_emit hturn, run_of_emit (turn_emit_extend bs hturn)]
      obtain ⟨hagree, hblocks⟩ := ih _ (hn ▸ turn_emit_lt hturn) d rfl
      exact ⟨hagree, congrArg (block :: ·) hblocks⟩

/-- A client whose buffer was framed as far as it goes: another run changes nothing that counts. -/
def Settled (c : Framer) : Prop := Agree c c.run.1 ∧ c.run.2 = []

theorem settled_initial : Settled {} := by
  rw [Settled, run_short (by decide)]
  exact ⟨Agree.refl _, rfl⟩

theorem settled_run (c : Framer) : Settled c.run.1 := by
  obtain ⟨hagree, hblocks⟩ := run_extend c []
  rw [extend_nil, extend_nil] at hagree hblocks
  exact ⟨hagree, by simpa using hblocks⟩

end Framer

open Framer

/-- **A stream fed in chunks is the stream fed in one piece**: the same blocks, and clients that
agree. -/
theorem pcapngFeed_agree {client : Framer} (h : Settled client) (chunks : List (List UInt8)) :
    Agree (pcapngFeed client chunks).1 (client.extend chunks.flatten).run.1 ∧
      (pcapngFeed client chunks).2 = (client.extend chunks.flatten).run.2 := by
  induction chunks generalizing client with
  | nil =>
    simp only [pcapngFeed, List.flatten_nil, extend_nil]
    exact ⟨h.1, h.2.symm⟩
  | cons chunk chunks ih =>
    obtain ⟨hagree, hblocks⟩ := ih (settled_run (client.extend chunk))
    obtain ⟨hagree', hblocks'⟩ := run_extend (client.extend chunk) chunks.flatten
    rw [extend_extend, ← List.flatten_cons] at hagree' hblocks'
    exact ⟨hagree.trans hagree'.symm, (congrArg (_ ++ ·) hblocks).trans hblocks'.symm⟩

/-- **Two ways of cutting the same bytes give the same blocks and the same replay header.** -/
theorem pcapngFeed_chunk_independent {chunks chunks' : List (List UInt8)}
    (h : chunks.flatten = chunks'.flatten) :
    (pcapngFeed {} chunks).2 = (pcapngFeed {} chunks').2 ∧
      (pcapngFeed {} chunks).1.pcapngHeader = (pcapngFeed {} chunks').1.pcapngHeader ∧
      (pcapngFeed {} chunks).1.pcapngHeaderComplete =
        (pcapngFeed {} chunks').1.pcapngHeaderComplete := by
  obtain ⟨hagree, hblocks⟩ := pcapngFeed_agree settled_initial chunks
  obtain ⟨hagree', hblocks'⟩ := pcapngFeed_agree settled_initial chunks'
  rw [← h] at hagree' hblocks'
  have hclients := hagree.trans hagree'.symm
  exact ⟨hblocks.trans hblocks'.symm, hclients.header, hclients.complete⟩

/-- Junk, then a section header cut after its second byte, against the whole in one piece. -/
theorem pcapngFeed_chunk_independent_junk :
    (pcapngFeed {} [[0xff, 0x0a, 0x0d], [0x0d, 0x0a, 12, 0, 0, 0, 0x4d, 0x3c, 0x2b, 0x1a, 0]]).2 =
      (pcapngFeed {} [[0xff, 0x0a, 0x0d, 0x0d, 0x0a, 12, 0, 0, 0, 0x4d, 0x3c, 0x2b, 0x1a, 0]]).2 :=
  (pcapngFeed_chunk_independent (by decide)).1

end WlanpiCore.Streaming
