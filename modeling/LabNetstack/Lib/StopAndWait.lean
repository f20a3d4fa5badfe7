import LabNetstack.Lib.Channel
import Mathlib.Order.Basic
import Mathlib.Algebra.Order.Group.Nat

/-!
# Stop and wait with a window

One direction of a byte stream over first-in first-out channels that lose and repeat messages.
The sender keeps at most one segment outstanding and repeats it until it is acknowledged; the
receiver takes a segment only when it continues the stream, and answers with what it has taken
and how much more it has room for. A final marker closes the stream once everything is
acknowledged.

Positions in the stream are unbounded natural numbers and the stream itself is a list, so that
nothing here depends on how an implementation stores either of them.

## The invariant

`Inv` relates the two ends and everything in flight. Its three load-bearing clauses are:

* `acc_cases` — the receiver stands at one of the two ends of the outstanding segment;
* `edge` — the right edge the sender works with never passes the receiver's own right edge
  `taken + cap`, which only moves forward;
* the two `sorted` clauses — sequence numbers never decrease along a channel, so a message that is
  processed bounds all that come behind it.

## Main results

* `Inv.transmit`, `Inv.repeatCurrent`, `Inv.finish`, `Inv.onAck`, `Inv.onSegment`, `Inv.write`,
  `Inv.take`, `Inv.degrades_fwd`, `Inv.degrades_bwd` — every step keeps the invariant
* `Inv.fits` — a segment that continues the stream always fits the receiver
* `Inv.ack_eq_sent_iff` — an acknowledgement in flight is either the awaited one or a repetition
-/

namespace StopAndWait

variable {α : Type*}

/-- The sending end. Positions below `acked` are acknowledged, those from `acked` to `sent` are
outstanding. -/
structure Sender (α : Type*) where
  written : List α
  acked : ℕ
  sent : ℕ
  window : ℕ
  fin : Bool

/-- The receiving end. The application has taken the first `taken` of the accepted items. -/
structure Receiver (α : Type*) where
  accepted : List α
  taken : ℕ
  fin : Bool

/-- A message towards the receiver. Without items it is a probe, or the final marker. -/
structure Segment (α : Type*) where
  seq : ℕ
  bytes : List α
  fin : Bool
deriving DecidableEq

/-- A message back to the sender; `fin` marks the answer to the final marker. -/
structure Ack where
  num : ℕ
  win : ℕ
  fin : Bool
deriving DecidableEq

/-- The number an acknowledgement carries: the final marker counts as one more position. -/
def Ack.value (a : Ack) : ℕ := a.num + a.fin.toNat

namespace Sender

variable (s : Sender α)

/-- The outstanding items. -/
def pending : List α := (s.written.drop s.acked).take (s.sent - s.acked)

/-- The segment a retransmission sends; a probe when nothing is outstanding. -/
def current : Segment α := ⟨s.acked, s.pending, false⟩

def finSegment : Segment α := ⟨s.acked, [], true⟩

def write (bs : List α) : Sender α := { s with written := s.written ++ bs }

/-- Put the next `n` items on the wire. -/
def transmit (n : ℕ) : Sender α := { s with sent := s.sent + n }

def finish : Sender α := { s with fin := true }

/-- Only the number that acknowledges everything sent is acted upon. -/
def onAck (a : Ack) : Sender α :=
  if a.value = s.sent then { s with acked := a.value, window := a.win } else s

end Sender

namespace Receiver

variable (cap : ℕ) (r : Receiver α)

/-- Free space of a receive buffer that holds at most `cap` items. -/
def free : ℕ := r.taken + cap - r.accepted.length

def take (n : ℕ) : Receiver α := { r with taken := r.taken + n }

def accept (bs : List α) : Receiver α := { r with accepted := r.accepted ++ bs }

/-- The acknowledgement of everything accepted so far. -/
def ack (fin : Bool) : Ack := ⟨r.accepted.length, r.free cap, fin⟩

/-- A segment is taken, and answered, only when it continues the stream. -/
def onSegment (m : Segment α) : Receiver α × Option Ack :=
  if m.fin then ({ r with fin := true }, some ({ r with fin := true }.ack cap true))
  else if m.seq = r.accepted.length then (r.accept m.bytes, some ((r.accept m.bytes).ack cap false))
  else (r, none)

end Receiver

/-- What is known of every segment in flight. -/
structure SegmentOk (mss : ℕ) (s : Sender α) (r : Receiver α) (m : Segment α) : Prop where
  seq_le : m.seq ≤ s.acked
  recent : r.accepted.length ≤ m.seq + mss
  items : m.bytes <+: s.written.drop m.seq
  whole : m.seq = s.acked → m.bytes ≠ [] → m.seq + m.bytes.length = s.sent
  fin : m.fin = true → m.bytes = [] ∧ s.fin = true

/-- What is known of every acknowledgement in flight. -/
structure AckOk (cap : ℕ) (s : Sender α) (r : Receiver α) (a : Ack) : Prop where
  acked_le : s.acked ≤ a.num
  num_le : a.num ≤ r.accepted.length
  win_le : a.win ≤ cap
  edge : a.num + a.win ≤ r.taken + cap
  fin : a.fin = true → r.fin = true

/-- The invariant of one direction: both ends, the segments and the acknowledgements in flight. -/
structure Inv (cap mss : ℕ) (s : Sender α) (r : Receiver α) (fwd : List (Segment α))
    (bwd : List Ack) : Prop where
  acc_cases : r.accepted.length = s.acked ∨ r.accepted.length = s.sent
  acked_le_sent : s.acked ≤ s.sent
  sent_le : s.sent ≤ s.written.length
  sent_le_mss : s.sent ≤ s.acked + mss
  ring_le : s.written.length ≤ s.acked + cap
  accepted_isPrefix : r.accepted <+: s.written
  taken_le : r.taken ≤ r.accepted.length
  unread_le : r.accepted.length ≤ r.taken + cap
  window_le : s.window ≤ cap
  in_window : s.sent ≤ s.acked + s.window
  edge : s.acked + s.window ≤ r.taken + cap
  fin_drained : s.fin = true → s.acked = s.written.length
  fin_recv : r.fin = true → s.fin = true
  fwd_sorted : fwd.Pairwise fun m m' => m.seq ≤ m'.seq
  fwd_ok : ∀ m ∈ fwd, SegmentOk mss s r m
  bwd_sorted : bwd.Pairwise fun a a' => a.num ≤ a'.num
  bwd_ok : ∀ a ∈ bwd, AckOk cap s r a

variable {cap mss : ℕ} {s : Sender α} {r : Receiver α} {fwd : List (Segment α)} {bwd : List Ack}

@[simp] theorem Sender.seq_current : s.current.seq = s.acked := rfl

@[simp] theorem Sender.fin_current : s.current.fin = false := rfl

@[simp] theorem Sender.bytes_current : s.current.bytes = s.pending := rfl

@[simp] theorem Sender.fin_onAck (s : Sender α) (a : Ack) : (s.onAck a).fin = s.fin := by
  rw [Sender.onAck]
  split <;> rfl

theorem Receiver.fin_onSegment_of_fin (m : Segment α) (h : r.fin = true) :
    (r.onSegment cap m).1.fin = true := by
  rw [Receiver.onSegment]
  split_ifs
  · rfl
  · exact h
  · exact h

theorem Sender.pending_isPrefix : s.pending <+: s.written.drop s.acked := List.take_prefix _ _

namespace Inv

/-! ### Consequences -/

theorem acked_le (h : Inv cap mss s r fwd bwd) : s.acked ≤ r.accepted.length := by
  have := h.acked_le_sent
  rcases h.acc_cases with h' | h' <;> omega

theorem acc_le (h : Inv cap mss s r fwd bwd) : r.accepted.length ≤ s.sent := by
  have := h.acked_le_sent
  rcases h.acc_cases with h' | h' <;> omega

theorem length_pending (h : Inv cap mss s r fwd bwd) : s.pending.length = s.sent - s.acked := by
  have := h.sent_le
  rw [Sender.pending, List.length_take, List.length_drop]
  omega

/-- With nothing outstanding both ends stand at the same position. -/
theorem acc_eq_of_idle (h : Inv cap mss s r fwd bwd) (hidle : s.sent = s.acked) :
    r.accepted.length = s.acked := by
  rcases h.acc_cases with h' | h' <;> omega

/-- Once the sender has sent its final marker the receiver has the whole stream. -/
theorem complete (h : Inv cap mss s r fwd bwd) (hfin : s.fin = true) :
    s.sent = s.written.length ∧ s.acked = s.sent ∧ r.accepted.length = s.written.length ∧
      r.accepted = s.written := by
  have hd := h.fin_drained hfin
  have hs := h.sent_le
  have ha := h.acked_le_sent
  have hacc : r.accepted.length = s.written.length := by
    rcases h.acc_cases with h' | h' <;> omega
  exact ⟨by omega, by omega, hacc, h.accepted_isPrefix.eq_of_length hacc⟩

/-- A segment in flight that continues the stream starts where the sender's outstanding items
start. -/
theorem seq_eq_acked (h : Inv cap mss s r fwd bwd) {m : Segment α} (hm : m ∈ fwd)
    (hseq : m.seq = r.accepted.length) : m.seq = s.acked := by
  have := (h.fwd_ok m hm).seq_le
  have := h.acked_le
  omega

/-- **A segment that continues the stream fits the receiver.** -/
theorem fits (h : Inv cap mss s r fwd bwd) {m : Segment α} (hm : m ∈ fwd)
    (hseq : m.seq = r.accepted.length) (hne : m.bytes ≠ []) :
    r.accepted.length + m.bytes.length = s.sent ∧ m.bytes.length ≤ r.free cap := by
  have hwhole := (h.fwd_ok m hm).whole (h.seq_eq_acked hm hseq) hne
  have := h.in_window
  have := h.edge
  rw [Receiver.free]
  omega

/-- An acknowledgement in flight names the end of what was sent, or the position before it. -/
theorem ack_num_cases (h : Inv cap mss s r fwd bwd) {a : Ack} (ha : a ∈ bwd) :
    s.acked ≤ a.num ∧ a.num ≤ s.sent :=
  ⟨(h.bwd_ok a ha).acked_le, (h.bwd_ok a ha).num_le.trans h.acc_le⟩

/-- The answer to the final marker names one position more than was ever sent, so it is never
mistaken for the acknowledgement of data. -/
theorem ack_eq_sent_iff (h : Inv cap mss s r fwd bwd) {a : Ack} (ha : a ∈ bwd) :
    a.value = s.sent ↔ a.fin = false ∧ a.num = s.sent := by
  cases hfin : a.fin with
  | false => simp [Ack.value, hfin]
  | true =>
    obtain ⟨hsent, hacked, hacc, -⟩ := h.complete (h.fin_recv ((h.bwd_ok a ha).fin hfin))
    have := (h.bwd_ok a ha).acked_le
    simp only [Ack.value, hfin, Bool.toNat_true, Bool.true_eq_false, false_and, iff_false]
    omega

/-! ### The channels -/

theorem degrades_fwd (h : Inv cap mss s r fwd bwd) {fwd' : List (Segment α)}
    (hd : Channel.Degrades fwd fwd') : Inv cap mss s r fwd' bwd :=
  { h with
    fwd_sorted := hd.pairwise (fun _ => le_rfl) h.fwd_sorted
    fwd_ok := hd.forall_mem h.fwd_ok }

theorem degrades_bwd (h : Inv cap mss s r fwd bwd) {bwd' : List Ack}
    (hd : Channel.Degrades bwd bwd') : Inv cap mss s r fwd bwd' :=
  { h with
    bwd_sorted := hd.pairwise (fun _ => le_rfl) h.bwd_sorted
    bwd_ok := hd.forall_mem h.bwd_ok }

/-- Appending a segment that starts at `acked`. -/
theorem push_fwd (h : Inv cap mss s r fwd bwd) {m : Segment α} (hm : SegmentOk mss s r m)
    (hseq : m.seq = s.acked) : Inv cap mss s r (fwd ++ [m]) bwd :=
  { h with
    fwd_sorted := by
      refine List.pairwise_append.mpr ⟨h.fwd_sorted, List.pairwise_singleton .., ?_⟩
      intro x hx y hy
      rw [List.mem_singleton.mp hy, hseq]
      exact (h.fwd_ok x hx).seq_le
    fwd_ok := by
      intro x hx
      rcases List.mem_append.mp hx with hx | hx
      · exact h.fwd_ok x hx
      · rw [List.mem_singleton.mp hx]
        exact hm }

/-- Appending an acknowledgement of everything accepted. -/
theorem push_bwd (h : Inv cap mss s r fwd bwd) {fin : Bool} (hfin : fin = true → r.fin = true) :
    Inv cap mss s r fwd (bwd ++ [r.ack cap fin]) :=
  { h with
    bwd_sorted := by
      refine List.pairwise_append.mpr ⟨h.bwd_sorted, List.pairwise_singleton .., ?_⟩
      intro x hx y hy
      rw [List.mem_singleton.mp hy]
      exact (h.bwd_ok x hx).num_le
    bwd_ok := by
      intro x hx
      rcases List.mem_append.mp hx with hx | hx
      · exact h.bwd_ok x hx
      · have htaken := h.taken_le
        have hunread := h.unread_le
        rw [List.mem_singleton.mp hx]
        exact ⟨h.acked_le, le_rfl, by simp only [Receiver.ack, Receiver.free]; omega,
          by simp only [Receiver.ack, Receiver.free]; omega, hfin⟩ }

/-! ### The sender's steps -/

theorem write (h : Inv cap mss s r fwd bwd) (hopen : s.fin = false) {bs : List α}
    (hroom : s.written.length + bs.length ≤ s.acked + cap) :
    Inv cap mss (s.write bs) r fwd bwd :=
  { h with
    sent_le := by
      have := h.sent_le
      simp only [Sender.write, List.length_append]
      omega
    ring_le := by simpa [Sender.write] using hroom
    accepted_isPrefix := h.accepted_isPrefix.trans (List.prefix_append ..)
    fin_drained := fun hfin => absurd hfin (by simp [Sender.write, hopen])
    fwd_ok := fun m hm =>
      { h.fwd_ok m hm with
        items := by
          have hseq : m.seq ≤ s.written.length :=
            (h.fwd_ok m hm).seq_le.trans (h.acked_le_sent.trans h.sent_le)
          rw [Sender.write, List.drop_append_of_le_length hseq]
          exact (h.fwd_ok m hm).items.trans (List.prefix_append ..) }
    bwd_ok := fun a ha => { h.bwd_ok a ha with } }

/-- Repeating the outstanding segment, or probing when there is none. -/
theorem repeatCurrent (h : Inv cap mss s r fwd bwd) : Inv cap mss s r (fwd ++ [s.current]) bwd := by
  refine h.push_fwd ⟨le_rfl, h.acc_le.trans h.sent_le_mss, Sender.pending_isPrefix, ?_, ?_⟩ rfl
  · intro _ _
    have := h.length_pending
    have := h.acked_le_sent
    simp only [Sender.seq_current, Sender.bytes_current]
    omega
  · simp

/-- Sending the next `n` items when nothing is outstanding. -/
theorem transmit (h : Inv cap mss s r fwd bwd) (hidle : s.sent = s.acked) {n : ℕ} (hpos : 0 < n)
    (hmss : n ≤ mss) (hwin : n ≤ s.window) (havail : s.sent + n ≤ s.written.length) :
    Inv cap mss (s.transmit n) r (fwd ++ [(s.transmit n).current]) bwd := by
  have hacc := h.acc_eq_of_idle hidle
  refine repeatCurrent ?_
  exact
    { h with
      acc_cases := Or.inl hacc
      acked_le_sent := h.acked_le_sent.trans (Nat.le_add_right ..)
      sent_le := havail
      sent_le_mss := by simp only [Sender.transmit]; omega
      in_window := by simp only [Sender.transmit]; omega
      fin_drained := fun hfin => by
        have := h.fin_drained hfin
        omega
      fwd_ok := fun m hm =>
        { h.fwd_ok m hm with
          whole := fun hseq hne => by
            -- an idle sender has no items of its current position in flight
            have hw := (h.fwd_ok m hm).whole hseq hne
            have hlen := List.length_pos_of_ne_nil hne
            simp only [Sender.transmit] at hseq
            omega }
      bwd_ok := fun a ha => { h.bwd_ok a ha with } }

/-- Sending the final marker. -/
theorem finish (h : Inv cap mss s r fwd bwd) (hdrained : s.acked = s.written.length) :
    Inv cap mss s.finish r (fwd ++ [s.finish.finSegment]) bwd := by
  have hfin : Inv cap mss s.finish r fwd bwd :=
    { h with
      fin_drained := fun _ => hdrained
      fin_recv := fun _ => rfl
      fwd_ok := fun m hm => { h.fwd_ok m hm with
        fin := fun hf => ⟨((h.fwd_ok m hm).fin hf).1, rfl⟩ }
      bwd_ok := fun a ha => { h.bwd_ok a ha with } }
  exact hfin.push_fwd ⟨le_rfl, h.acc_le.trans h.sent_le_mss, List.nil_prefix, by
    simp [Sender.finSegment], fun _ => ⟨rfl, rfl⟩⟩ rfl

/-- The oldest acknowledgement arrives. -/
theorem onAck {a : Ack} (h : Inv cap mss s r fwd (a :: bwd)) :
    Inv cap mss (s.onAck a) r fwd bwd := by
  have hrest : Inv cap mss s r fwd bwd := h.degrades_bwd (Channel.degrades_tail a bwd)
  have ha := h.bwd_ok a (List.mem_cons_self ..)
  rw [Sender.onAck]
  split_ifs with hval
  · obtain ⟨hfin, hnum⟩ := (h.ack_eq_sent_iff (List.mem_cons_self ..)).mp hval
    have hacc : r.accepted.length = s.sent := by
      have := ha.num_le
      have := h.acc_le
      omega
    have hadv := h.acked_le_sent
    have hsent := h.sent_le
    have hring := h.ring_le
    have hedge := ha.edge
    have hwin := ha.win_le
    rw [hval]
    exact
      { hrest with
        acc_cases := Or.inr hacc
        acked_le_sent := le_rfl
        sent_le_mss := Nat.le_add_right ..
        ring_le := by simp only; omega
        window_le := hwin
        in_window := Nat.le_add_right ..
        edge := by simp only; omega
        fin_drained := fun hf => by
          have := h.fin_drained hf
          simp only
          omega
        fwd_ok := fun m hm =>
          { h.fwd_ok m hm with
            seq_le := (h.fwd_ok m hm).seq_le.trans hadv
            whole := fun hseq hne => by
              have hle := (h.fwd_ok m hm).seq_le
              simp only at hseq
              exact (h.fwd_ok m hm).whole (by omega) hne }
        bwd_ok := fun b hb =>
          { h.bwd_ok b (List.mem_cons_of_mem _ hb) with
            acked_le := by
              have := List.rel_of_pairwise_cons h.bwd_sorted hb
              simp only
              omega } }
  · exact hrest

/-! ### The receiver's steps -/

theorem take (h : Inv cap mss s r fwd bwd) {n : ℕ} (hn : r.taken + n ≤ r.accepted.length) :
    Inv cap mss s (r.take n) fwd bwd :=
  { h with
    taken_le := hn
    unread_le := by
      have := h.unread_le
      simp only [Receiver.take]
      omega
    edge := by
      have := h.edge
      simp only [Receiver.take]
      omega
    fwd_ok := fun m hm => { h.fwd_ok m hm with }
    bwd_ok := fun a ha =>
      { h.bwd_ok a ha with
        edge := by
          have := (h.bwd_ok a ha).edge
          simp only [Receiver.take]
          omega } }

/-- Taking the items of the oldest segment, which continues the stream. -/
theorem accept {m : Segment α} (h : Inv cap mss s r (m :: fwd) bwd)
    (hseq : m.seq = r.accepted.length) (hne : m.bytes ≠ []) :
    Inv cap mss s (r.accept m.bytes) fwd bwd := by
  have hm := h.fwd_ok m (List.mem_cons_self ..)
  obtain ⟨hend, hfree⟩ := h.fits (List.mem_cons_self ..) hseq hne
  have hacked := h.seq_eq_acked (List.mem_cons_self ..) hseq
  have hwin := h.in_window
  have hedge := h.edge
  have hlen : (r.accept m.bytes).accepted.length = s.sent := by
    rw [Receiver.accept, List.length_append]
    exact hend
  exact
    { h with
      acc_cases := Or.inr hlen
      accepted_isPrefix := by
        obtain ⟨rest, hrest⟩ := h.accepted_isPrefix
        have hitems := hm.items
        rw [hseq, ← hrest, List.drop_left] at hitems
        rw [Receiver.accept, ← hrest]
        exact (List.prefix_append_right_inj _).mpr hitems
      taken_le := h.taken_le.trans (by simp [Receiver.accept])
      unread_le := by rw [hlen]; simp only [Receiver.accept]; omega
      fwd_sorted := (List.pairwise_cons.mp h.fwd_sorted).2
      fwd_ok := fun x hx =>
        { h.fwd_ok x (List.mem_cons_of_mem _ hx) with
          recent := by
            -- what is behind `m` starts no earlier than `m` does
            have hle := List.rel_of_pairwise_cons h.fwd_sorted hx
            have hmss := h.sent_le_mss
            rw [hlen]
            omega }
      bwd_ok := fun a ha =>
        { h.bwd_ok a ha with
          num_le := (h.bwd_ok a ha).num_le.trans (by simp [Receiver.accept]) } }

/-- The oldest segment arrives; its answer, if any, joins the acknowledgements in flight. -/
theorem onSegment {m : Segment α} (h : Inv cap mss s r (m :: fwd) bwd) :
    Inv cap mss s (r.onSegment cap m).1 fwd (bwd ++ (r.onSegment cap m).2.toList) := by
  have hrest : Inv cap mss s r fwd bwd := h.degrades_fwd (Channel.degrades_tail m fwd)
  rw [Receiver.onSegment]
  split_ifs with hfin hseq
  · have hsfin : s.fin = true := ((h.fwd_ok m (List.mem_cons_self ..)).fin hfin).2
    have hmark : Inv cap mss s { r with fin := true } fwd bwd :=
      { hrest with
        fin_recv := fun _ => hsfin
        fwd_ok := fun x hx => { hrest.fwd_ok x hx with }
        bwd_ok := fun a ha => { hrest.bwd_ok a ha with fin := fun _ => rfl } }
    exact hmark.push_bwd fun _ => rfl
  · refine push_bwd ?_ (by simp)
    by_cases hne : m.bytes = []
    · simpa [Receiver.accept, hne] using hrest
    · exact h.accept hseq hne
  · simpa using hrest

/-- Both ends fresh, with the full window known to the sender. -/
theorem start (r₀ : Receiver α) (hr : r₀ = ⟨[], 0, false⟩) :
    Inv cap mss (⟨[], 0, 0, cap, false⟩ : Sender α) r₀ [] [] := by
  subst hr
  exact ⟨by simp, le_rfl, le_rfl, by simp, by simp, List.prefix_refl _, le_rfl, by simp, le_rfl,
    by simp, by simp, by simp, by simp, List.Pairwise.nil, by simp, List.Pairwise.nil, by simp⟩

end Inv

/-! ### Progress -/

/-- What is outstanding will be acknowledged by what is in flight: a receiver that needs the
segment has it coming, and one that has taken it has sent the acknowledgement. -/
structure Flowing (s : Sender α) (r : Receiver α) (fwd : List (Segment α)) (bwd : List Ack) :
    Prop where
  segment : s.sent ≠ s.acked → r.accepted.length = s.acked → s.current ∈ fwd
  answer : s.sent ≠ s.acked → r.accepted.length = s.sent → ∃ a ∈ bwd, a.value = s.sent

namespace Flowing

theorem of_idle (h : s.sent = s.acked) : Flowing s r fwd bwd :=
  ⟨fun hout => absurd h hout, fun hout => absurd h hout⟩

/-- When everything has arrived, nothing is outstanding. -/
theorem idle (h : Flowing s r [] []) (hinv : Inv cap mss s r [] []) : s.sent = s.acked := by
  by_contra hout
  rcases hinv.acc_cases with hacc | hacc
  · exact absurd (h.segment hout hacc) (by simp)
  · exact absurd (h.answer hout hacc) (by simp)

/-- The receiver takes the oldest segment and answers it, or it was not the awaited one. -/
theorem onSegment {m : Segment α} (h : Flowing s r (m :: fwd) bwd)
    (hinv : Inv cap mss s r (m :: fwd) bwd) :
    Flowing s (r.onSegment cap m).1 fwd (bwd ++ (r.onSegment cap m).2.toList) := by
  have hm : m ∈ m :: fwd := List.mem_cons_self ..
  have hmore : ∀ bwd', (∃ a ∈ bwd, a.value = s.sent) → ∃ a ∈ bwd ++ bwd', a.value = s.sent :=
    fun bwd' ⟨a, ha, hval⟩ => ⟨a, List.mem_append_left _ ha, hval⟩
  -- a segment that is not the awaited one can be dropped
  have hrest : m ≠ s.current → s.sent ≠ s.acked → r.accepted.length = s.acked → s.current ∈ fwd :=
    fun hne hout hacc => (List.mem_cons.mp (h.segment hout hacc)).resolve_left (Ne.symm hne)
  rw [Receiver.onSegment]
  split_ifs with hfin hseq
  · refine ⟨hrest ?_, fun hout hacc => hmore _ (h.answer hout hacc)⟩
    rintro rfl
    simp at hfin
  · by_cases hnil : m.bytes = []
    · -- a probe
      have hsame : r.accept m.bytes = r := by rw [hnil, Receiver.accept, List.append_nil]
      rw [hsame]
      refine ⟨fun hout => hrest ?_ hout, fun hout hacc => hmore _ (h.answer hout hacc)⟩
      rintro rfl
      have hlength := hinv.length_pending
      have hle := hinv.acked_le_sent
      rw [Sender.bytes_current] at hnil
      simp only [hnil, List.length_nil] at hlength
      omega
    · -- the outstanding segment
      have hend := (hinv.fits hm hseq hnil).1
      have hacc : (r.accept m.bytes).accepted.length = s.sent := by
        rw [Receiver.accept, List.length_append, hend]
      refine ⟨fun hout hacc' => absurd (hacc.symm.trans hacc') hout, fun _ _ => ?_⟩
      refine ⟨_, List.mem_append_right _ (List.mem_singleton.mpr rfl), ?_⟩
      simp only [Ack.value, Receiver.ack, hacc, Bool.toNat_false, Nat.add_zero]
  · refine ⟨fun hout hacc => hrest ?_ hout hacc, fun hout hacc => hmore _ (h.answer hout hacc)⟩
    rintro rfl
    exact hseq (by rw [Sender.seq_current, hacc])

/-- The sender takes the oldest acknowledgement, or it was not the awaited one. -/
theorem onAck {a : Ack} (h : Flowing s r fwd (a :: bwd)) : Flowing (s.onAck a) r fwd bwd := by
  rw [Sender.onAck]
  split_ifs with hval
  · exact of_idle hval.symm
  · refine ⟨h.segment, fun hout hacc => ?_⟩
    obtain ⟨b, hb, hb'⟩ := h.answer hout hacc
    refine ⟨b, (List.mem_cons.mp hb).resolve_left ?_, hb'⟩
    rintro rfl
    exact hval hb'

end Flowing

end StopAndWait
