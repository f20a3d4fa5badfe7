import LabNetstack.Transport.RecvQueue

/-!
# The end of the file

`readLab` returns 0 when it has found the ring empty and then the socket closed. The two looks are
not one step: between them the loop thread may take data and complete the close.

## Main results

* `Threads.endOfFile_iff` — in which runs a return of 0 means that everything has been read
-/

namespace LabNetstack

open RingMemory

namespace Threads

variable {s s' : Threads} {act : Action} {i nbyte : ℕ} {phase : Phase ℕ}

/-- The next step of thread `i` in `readLab` is to return 0. -/
def ReturnsZero (i : ℕ) (s : Threads) : Prop :=
  ∃ s', step (.lookRead i) s = some s' ∧ s'.readers i = .idle

/-- Who returns 0 has left nothing behind. -/
def EndOfFile (s : Threads) : Prop :=
  ∀ i, ReturnsZero i s → s.returned = s.received ∧ s.socket.recvBack = s.socket.recvFront

/-- No call asks for nothing. -/
def Asks : Action → Prop
  | .readLab _ nbyte => 0 < nbyte
  | _ => True

instance : ∀ act, Decidable (Asks act)
  | .readLab _ nbyte => inferInstanceAs (Decidable (0 < nbyte))
  | .writeLab .. | .lookWrite _ | .copyWrite _ | .lookRead _ | .copyRead _ | .close | .tick _
  | .segment _ => .isTrue trivial

/-- The condition on a step: a segment does not close the socket while `i` is between its two looks
and there is something to read. -/
def ClosesEmpty (i : ℕ) : Action → Threads → Prop
  | .segment packet, s =>
    s.socket.state = .establisted → packet.Closes s.socket →
      (∃ nbyte, s.readers i = .testing nbyte) →
      s.socket.recvBack = s.socket.recvFront ∧ packet.payload s.socket = []
  | _, _ => True

instance (i : ℕ) : ∀ act s, Decidable (ClosesEmpty i act s)
  | .segment packet, s =>
    match hreader : s.readers i with
    | .testing nbyte =>
      decidable_of_iff (s.socket.state = .establisted → packet.Closes s.socket →
          s.socket.recvBack = s.socket.recvFront ∧ packet.payload s.socket = [])
        ⟨fun h hopen hcloses _ => h hopen hcloses,
          fun h hopen hcloses => h hopen hcloses ⟨nbyte, hreader⟩⟩
    | .idle | .measuring _ | .copying _ _ =>
      .isTrue fun _ _ ⟨_, hother⟩ => by cases hreader.symm.trans hother
  | .writeLab .., _ | .lookWrite _, _ | .copyWrite _, _ | .readLab .., _ | .lookRead _, _
  | .copyRead _, _ | .close, _ | .tick _, _ => .isTrue trivial

theorem returnsZero_iff : ReturnsZero i s ↔
    s.socket.state = .closed ∧ ∃ nbyte, s.readers i = .testing nbyte := by
  constructor
  · rintro ⟨s', hs, hidle⟩
    obtain ⟨phase, hphase, rfl⟩ := Option.map_eq_some_iff.mp hs
    simp only [Function.update_self] at hidle
    subst hidle
    cases hreader : s.readers i with
    | testing nbyte =>
      rw [hreader, Phase.look, Option.some.injEq] at hphase
      split_ifs at hphase with hclosed
      exact ⟨of_decide_eq_true hclosed, nbyte, rfl⟩
    | measuring nbyte =>
      rw [hreader, Phase.look, Option.some.injEq] at hphase
      split_ifs at hphase
    | idle | copying =>
      rw [hreader] at hphase
      cases hphase
  · rintro ⟨hclosed, nbyte, hreader⟩
    refine ⟨{ s with readers := Function.update s.readers i .idle }, ?_, Function.update_self ..⟩
    rw [step, hreader, Phase.look, if_pos (decide_eq_true hclosed), Option.map_some]

theorem unread_eq_nil_iff (k : Socket) : k.unread = [] ↔ k.recvBack = k.recvFront := by
  rw [Socket.unread, ring_eq_nil_iff]
  exact eq_comm

/-- A look that finds nothing has found the ring empty. -/
theorem unread_of_recvByte {k : Socket} (hnbyte : 0 < nbyte) (hzero : ¬ 0 < recvByte k nbyte) :
    k.unread = [] := by
  have hle : (recvByte k nbyte).toNat = 0 := by
    rw [zero_lt_iff_toNat] at hzero
    omega
  rw [recvByte, toNat_clamp] at hle
  rw [← List.length_eq_zero_iff, Socket.unread, length_ring]
  omega

/-- What a run with one reader keeps, until the end of the file. -/
structure EofOk (i : ℕ) (s : Threads) : Prop where
  read : s.ReadOk
  sole : SoleReader i s
  asks : ∀ nbyte, s.readers i = .measuring nbyte ∨ s.readers i = .testing nbyte → 0 < nbyte
  empty : ∀ nbyte, s.readers i = .testing nbyte → s.socket.state = .closed → s.socket.unread = []

theorem EofOk.endOfFile (h : EofOk i s) : s.EndOfFile := by
  intro j hzero
  obtain ⟨hclosed, nbyte, hreader⟩ := returnsZero_iff.mp hzero
  have hj : j = i := by
    by_contra hne
    rw [h.sole.idle j hne] at hreader
    cases hreader
  subst hj
  have hempty := h.empty nbyte hreader hclosed
  have hkept := h.read.kept
  rw [ReadsKept, hempty, List.append_nil] at hkept
  exact ⟨hkept, (unread_eq_nil_iff _).mp hempty⟩

/-- The reader's own step. -/
theorem EofOk.look (h : EofOk i s)
    (hphase : (s.readers i).look (recvByte s.socket) (decide (s.socket.state = .closed))
      = some phase) :
    (∀ nbyte, phase = .measuring nbyte ∨ phase = .testing nbyte → 0 < nbyte) ∧
      ∀ nbyte, phase = .testing nbyte → s.socket.unread = [] := by
  cases hreader : s.readers i with
  | measuring nbyte =>
    have hpos := h.asks nbyte (Or.inl hreader)
    rw [hreader, Phase.look, Option.some.injEq] at hphase
    split_ifs at hphase with hsize
    · subst hphase
      exact ⟨by simp, by simp⟩
    · subst hphase
      refine ⟨fun n hn => ?_, fun _ _ => unread_of_recvByte hpos hsize⟩
      rcases hn with hn | hn
      · cases hn
      · obtain rfl := Phase.testing.inj hn
        exact hpos
  | testing nbyte =>
    have hpos := h.asks nbyte (Or.inr hreader)
    rw [hreader, Phase.look, Option.some.injEq] at hphase
    split_ifs at hphase
    · subst hphase
      exact ⟨by simp, by simp⟩
    · subst hphase
      refine ⟨fun n hn => ?_, by simp⟩
      rcases hn with hn | hn
      · obtain rfl := Phase.measuring.inj hn
        exact hpos
      · cases hn
  | idle | copying =>
    rw [hreader] at hphase
    cases hphase

/-- A segment, on the side of the receive ring. -/
theorem closed_segment {k k' : Socket} {packet : TCPPacket} {out : List TCPPacket}
    (hstate : k.state = .establisted ∨ k.state = .closed) (hlen : packet.data.length < 2 ^ 16)
    (h : handleTCPMain k packet = some (k', out)) :
    (k.state = .closed ∧ k' = k) ∨
      (k.state = .establisted ∧ (k'.state = .closed ↔ packet.Closes k) ∧
        k'.unread = k.unread ++ packet.payload k) := by
  rcases hstate with hopen | hclosed
  · rw [handleTCPMain, hopen] at h
    obtain ⟨-, haccepts, -⟩ := established_recv hlen h
    exact Or.inr ⟨hopen, established_closed_iff h hopen, haccepts.unread⟩
  · rw [handleTCPMain, hclosed] at h
    obtain ⟨rfl, -⟩ := Prod.mk.inj (Option.some.inj h)
    exact Or.inl ⟨hclosed, rfl⟩

/-- **One step.** -/
theorem EofOk.step (h : EofOk i s) (hact : OneReader i act ∧ Asks act)
    (hs : Threads.step act s = some s') (hc : ClosesEmpty i act s) : EofOk i s' := by
  obtain ⟨hone, hasks⟩ := hact
  have hread := h.read.step (h.sole.fitsRead hone) hs
  have hsole := h.sole.step h.read hone hs
  cases moves_of_step hs with
  | readLab j nbyte =>
    obtain rfl := hone j rfl
    refine ⟨hread, hsole, fun n hn => ?_, fun n hn => ?_⟩
    · simp only [Function.update_self] at hn
      rcases hn with hn | hn
      · obtain rfl := Phase.measuring.inj hn
        exact hasks
      · cases hn
    · simp only [Function.update_self] at hn
      cases hn
  | lookRead j phase hphase =>
    obtain rfl := hone j rfl
    obtain ⟨hpos, hempty⟩ := h.look hphase
    refine ⟨hread, hsole, fun n hn => ?_, fun n hn _ => ?_⟩
    · simp only [Function.update_self] at hn
      exact hpos n hn
    · simp only [Function.update_self] at hn
      exact hempty n hn
  | copyRead j nbyte n hphase =>
    obtain rfl := hone j rfl
    refine ⟨hread, hsole, fun n hn => ?_, fun n hn => ?_⟩
    · simp only [Function.update_self] at hn
      rcases hn with hn | hn <;> cases hn
    · simp only [Function.update_self] at hn
      cases hn
  | tick nowtime =>
    have heq := (Socket.tick_cases nowtime s.socket).1
    refine ⟨hread, hsole, h.asks, fun n hn hclosed => ?_⟩
    simp only at hclosed ⊢
    rw [heq] at hclosed ⊢
    exact h.empty n hn hclosed
  | segment packet k out hlen hk =>
    refine ⟨hread, hsole, h.asks, fun n hn hclosed => ?_⟩
    rcases closed_segment h.read.state hlen hk with ⟨hbefore, rfl⟩ | ⟨hopen, hcloses, hunread⟩
    · exact h.empty n hn hbefore
    · obtain ⟨hempty, hpayload⟩ := hc hopen (hcloses.mp hclosed) ⟨n, hn⟩
      simp only
      rw [hunread, (unread_eq_nil_iff _).mpr hempty, hpayload, List.append_nil]
  | refused | writeLab | lookWrite | copyWrite | close =>
    exact ⟨hread, hsole, h.asks, h.empty⟩

/-- A close over what is still to be read ends the file too early. -/
theorem EofOk.closesEmpty (h : EofOk i s) (hs : Threads.step act s = some s')
    (heof : s'.EndOfFile) : ClosesEmpty i act s := by
  cases moves_of_step hs with
  | segment packet k out hlen hk =>
    intro hopen hcloses htesting
    rcases closed_segment h.read.state hlen hk with ⟨hclosed, -⟩ | ⟨-, hclosed, hunread⟩
    · rw [hopen] at hclosed
      cases hclosed
    · obtain ⟨-, hempty⟩ := heof i (returnsZero_iff.mpr ⟨hclosed.mpr hcloses, htesting⟩)
      rw [(unread_eq_nil_iff k).mpr hempty] at hunread
      obtain ⟨hbefore, hpayload⟩ := List.append_eq_nil_iff.mp hunread.symm
      exact ⟨(unread_eq_nil_iff _).mp hbefore, hpayload⟩
  | refused | writeLab | lookWrite | copyWrite | readLab | lookRead | copyRead | close | tick =>
    trivial

theorem start_eofOk {k : Socket} (hk : Solo.Connected k) : EofOk i (start k) where
  read := (start_ok hk).read
  sole := (start_readerOk (i := i) hk).sole
  asks nbyte hidle := by rcases hidle with hidle | hidle <;> cases hidle
  empty nbyte hidle := by cases hidle

/-- **The end of the file.** All along a run with one reader, that asks for something, a return of 0
means that everything received has been returned exactly if no segment closes the socket while the
reader has found the ring empty, there is something to read, and it has not looked at the state. -/
theorem endOfFile_iff {k : Socket} (hk : Solo.Connected k) {acts : List Action}
    (hacts : ∀ act ∈ acts, OneReader i act ∧ Asks act)
    (hrun : Run.run step acts (start k) = some s) :
    (∀ before after t, acts = before ++ after → Run.run step before (start k) = some t →
      t.EndOfFile) ↔ Run.Meets step (ClosesEmpty i) acts (start k) :=
  (Run.meets_iff (a := fun act _ => OneReader i act ∧ Asks act) (p := EofOk i)
    (fun _ => EofOk.endOfFile) (fun _ _ _ hact h => h.step hact) (fun _ _ _ _ h => h.closesEmpty)
    (Run.meets_of_forall hacts) (start_eofOk hk) hrun).symm

/-- The peer's `FIN`. -/
def finSegment (seqNum : BitVec 32) : TCPPacket :=
  ⟨0, 0, createTCPHeader 0 0 seqNum 0 ctFin 0xffff, []⟩

/-- A byte arrives and is read, and both sides close. The reader has found the ring empty and not yet
looked at the state when the last segment arrives. -/
def wholeFile : List Action :=
  [.readLab 0 1, .segment (Solo.dataSegment 1 [7]), .lookRead 0, .copyRead 0, .readLab 0 1,
    .segment (finSegment 2), .close, .tick 1, .lookRead 0, .segment (Solo.pureAck 1)]

theorem endOfFile_iff_wholeFile :
    ReturnsZero 0 ((Run.run step wholeFile (start Solo.answeredClient)).get (by decide)) ∧
      ∀ before after t, wholeFile = before ++ after →
        Run.run step before (start Solo.answeredClient) = some t → t.EndOfFile :=
  ⟨returnsZero_iff.mpr ⟨by decide, 1, rfl⟩,
    (endOfFile_iff (i := 0) Solo.connected_answeredClient (by decide) (Option.some_get
      (x := Run.run step wholeFile (start Solo.answeredClient)) (by decide)).symm).mpr (by decide)⟩

/-- The reader finds nothing. Then a byte arrives, the peer closes, and so does the socket. -/
def lateByte : List Action :=
  [.readLab 0 1, .lookRead 0, .segment (Solo.dataSegment 1 [7]), .segment (finSegment 2), .tick 1,
    .segment (Solo.pureAck 1)]

/-- A reader can be told that the file has ended before a byte of it. -/
theorem not_endOfFile : ¬ ∀ (k : Socket) (acts : List Action) (s : Threads), Solo.Connected k →
    (∀ act ∈ acts, OneReader 0 act ∧ Asks act) → Run.run step acts (start k) = some s →
    s.EndOfFile := by
  intro hclaim
  let s := (Run.run step lateByte (start Solo.answeredClient)).get (by decide)
  have heof : s.EndOfFile := hclaim Solo.answeredClient lateByte s Solo.connected_answeredClient
    (by decide) (Option.some_get _).symm
  have hzero : ReturnsZero 0 s := returnsZero_iff.mpr ⟨by decide, 1, rfl⟩
  exact absurd (heof 0 hzero).1 (by decide)

end Threads

end LabNetstack
