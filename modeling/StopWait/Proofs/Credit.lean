import StopWait.Proofs.Refusals

/-!
# What an acknowledgment is credited to

A connection takes every segment with the ACK bit for the acknowledgment of the data that it has in
flight, whatever number the segment bears, and goes on from that number. The window is credited for
the data in flight all the same, and for nothing else.

* `lastData`: the data segment that was sent last, which is the one in flight.
* `Solvent.window_journal`: **the window is what the journal makes of it.**
* `Solvent.credited_sublist`: **each data segment is credited at most once.**
* `acknowledgment_credits`: which segment is taken for an acknowledgment, and what it does.
* `forged_number_taken`: the number of an acknowledgment is not looked at.
-/

namespace StopWait

/-- What a record in the journal makes of the window. -/
def SendWindow.account (w : SendWindow) (r : Log.Record) : Except SendWindow.Overflow SendWindow :=
  match r.direction with
  | .send => .ok (w.spend r.bytes)
  | .recv => w.acknowledge (.data r.bytes)

/-- The bytes of the records of a direction. -/
def Log.amounts (direction : Log.Direction) (records : List Log.Record) : List UInt32 :=
  (records.filter (·.direction = direction)).map (·.bytes)

theorem Log.amounts_append (direction : Log.Direction) (rs rs' : List Log.Record) :
    Log.amounts direction (rs ++ rs') = Log.amounts direction rs ++ Log.amounts direction rs' := by
  simp only [amounts, List.filter_append, List.map_append]

namespace Connection

/-- The last data segment that was sent. -/
def lastData (c : Connection) : List Op → Option Segment
  | [] => none
  | op :: ops => ((c.perform op).1.lastData ops).or (c.dataSent op)

variable {c d : Connection} {op : Op} {kind : Kind} {a s : Segment} {n : UInt32}

/-- **The window is what the journal makes of it**: it is spent by the data that was sent, and
refunded and grown by the acknowledgments that were taken in. -/
theorem Solvent.window_journal (h : c.Solvent) (ops : List Op) :
    (c.journal ops).foldlM SendWindow.account c.window = .ok (c.performAll ops).window := by
  induction ops generalizing c with
  | nil => rfl
  | cons op ops ih =>
    have hstep : (c.posted op).foldlM SendWindow.account c.window =
        .ok (c.perform op).1.window := by
      have hop := h.perform_account op
      generalize (c.perform op).2 = e, c.dataSent op = sent, c.posted op = rs at hop ⊢
      cases hop with
      | idle hw | loses hw | spends _ _ hw => rw [hw]; rfl
      | credits _ _ hw => rw [← hw]; exact bind_pure _
    rw [journal, List.foldlM_append, hstep]
    exact ih (h.perform op)

/-- **Each data segment is credited at most once**, and in the order in which they were sent. The
one in flight is not credited yet. -/
theorem Solvent.credited_sublist (h : c.Solvent) (ops : List Op) :
    (Log.amounts .recv (c.journal ops) ++ (c.performAll ops).inFlight.toList).Sublist
      (c.inFlight.toList ++ Log.amounts .send (c.journal ops)) := by
  induction ops generalizing c with
  | nil => exact (List.append_nil _).symm ▸ .refl _
  | cons op ops ih =>
    have hstep : (Log.amounts .recv (c.posted op) ++ (c.perform op).1.inFlight.toList).Sublist
        (c.inFlight.toList ++ Log.amounts .send (c.posted op)) := by
      have hop := h.perform_account op
      generalize (c.perform op).2 = e, c.dataSent op = sent, c.posted op = rs at hop ⊢
      cases hop with
      | idle _ hf => rw [hf]; exact (List.append_nil _).symm ▸ .refl _
      | loses _ hd => rw [hd]; exact List.nil_sublist _
      | spends hc hd => rw [hc, hd]; exact .refl _
      | credits hc hd => rw [hc, hd]; exact .refl _
    have hrest := ih (h.perform op)
    have hfirst := List.Sublist.append (.refl (Log.amounts .recv (c.posted op))) hrest
    have hsecond := hstep.append (.refl (Log.amounts .send ((c.perform op).1.journal ops)))
    rw [List.append_assoc] at hsecond
    rw [journal, Log.amounts_append, Log.amounts_append, List.append_assoc]
    exact hfirst.trans (hsecond.trans (List.append_assoc .. ▸ .refl _))

/-- **What is in flight was sent last.** -/
theorem Solvent.inFlight_lastData (h : c.Solvent) (ops : List Op)
    (hn : (c.performAll ops).inFlight = some n) :
    (∃ a, c.lastData ops = some a ∧ Carries a n) ∨
      (c.lastData ops = none ∧ c.inFlight = some n) := by
  induction ops generalizing c with
  | nil => exact .inr ⟨rfl, hn⟩
  | cons op ops ih =>
    obtain ⟨a, hlast, ha⟩ | ⟨hlast, hf⟩ := ih (h.perform op) hn
    · exact .inl ⟨a, by rw [lastData, hlast]; rfl, ha⟩
    · -- nothing was sent since, so it is a matter of this operation
      have hlast' : c.lastData (op :: ops) = c.dataSent op := by
        rw [lastData, hlast]
        rfl
      rw [hlast']
      have hop := h.perform_account op
      generalize (c.perform op).2 = e, c.dataSent op = sent, c.posted op = rs at hop ⊢
      cases hop with
      | idle _ hsame => exact .inr ⟨rfl, hsame ▸ hf⟩
      | spends _ hd _ ha =>
        rw [hd] at hf
        cases hf
        exact .inl ⟨_, rfl, ha⟩
      | loses _ hd | credits _ hd =>
        rw [hd] at hf
        cases hf

/-- **What is taken for the acknowledgment of the data in flight**: every segment with the bits of
the awaited kind, if its sequence space is a word, as far as the transfer log takes the record of
it. -/
theorem Solvent.accept_iff (h : c.Solvent) (hn : c.inFlight = some n)
    (ha : kind.control.ack = true) (s : Segment) :
    (∃ d, c.accept kind s = (d, .ok ())) ↔
      c.done = false ∧ kind.accepts s.header.control = true ∧ s.seqLenFits = true ∧
        (c.logData .recv n).2 = .ok () := by
  constructor
  · rintro ⟨d, hd⟩
    obtain ⟨e, hs, -⟩ | ⟨-, -, -, ha', -⟩ | ⟨hdone, hk, hfits, -, -⟩ := accept_cases c kind s
    · cases hs.symm.trans hd
    · cases ha.symm.trans ha'
    · obtain ⟨l, -, herr⟩ | ⟨hok, -⟩ := h.accept_flight hdone hk hfits ha hn
      · cases herr.symm.trans hd
      · exact ⟨hdone, hk, hfits, hok⟩
  · rintro ⟨hdone, hk, hfits, hok⟩
    obtain ⟨l, hl, -⟩ | ⟨-, hd⟩ := h.accept_flight hdone hk hfits ha hn
    · cases hl.symm.trans hok
    · exact hd

/-- **What an acknowledgment does** to a connection with data in flight. -/
theorem Solvent.accept_credits (h : c.Solvent) (hn : c.inFlight = some n)
    (ha : kind.control.ack = true) (hd : c.accept kind s = (d, .ok ())) :
    d.nextSeq = s.header.ack ∧ d.inFlight = none ∧
      c.window.acknowledge (.data n) = .ok d.window := by
  have hp := perform_accept_ok hd
  have hnext : d.nextSeq = s.header.ack := by
    have hfig : d.nextSeq = if kind = .syn then c.iss else s.header.ack :=
      congrArg Figures.next (figures_perform hp)
    rw [hfig, if_neg (ne_syn_of_ack ha)]
  have hop := h.accept_account kind s
  have hposted : c.posted (.accept kind s) = [c.entry .recv n] := by
    rw [posted_of_done hp]
    simp [due, ha, hn]
  rw [hposted, hp] at hop
  cases hop with
  | credits _ hnone hw => exact ⟨hnext, hnone, hw⟩

/-- **The acknowledgment of an end that has just received a data segment** bears the number just
past it. -/
theorem Carries.ack_number (h : Carries a n) {p q q' : Connection} {r : Segment}
    (hq : p.record a = .ok q) (hr : q.segment .ack [] = (q', .ok r)) :
    r.header.ack = a.header.seq + n := by
  have hreceived : q.received = ⟨a.header.seq, a.header.ack, a.seqLen, a.header.window⟩ := by
    obtain ⟨e, he, -⟩ | ⟨-, -, hok⟩ := record_cases p a
    · cases he.symm.trans hq
    · cases hok.symm.trans hq
      rfl
  have hlen : a.seqLen = n := by
    simp [Segment.seqLen, h.control, h.length, Kind.control]
  obtain ⟨e, hs, -⟩ | ⟨hk, -⟩ | ⟨-, -, -, hs⟩ | ⟨hk, -⟩ := segment_cases q .ack []
  · rw [hs] at hr
    cases hr
  · cases hk
  · rw [hs] at hr
    cases hr
    show q.received.seq + q.received.len = _
    rw [hreceived, hlen]
  · cases hk

/-- **What an acknowledgment is credited to.** Whatever is done with a connection that has nothing
in flight, as a fresh one has, in any order and state: the data in flight, if there is any, is that
of the data segment that was sent last. As long as it is in flight, every segment with the bits of
an awaited kind that includes ACK is taken for its acknowledgment, if the connection is not done,
the sequence space of the segment is a word and the transfer log takes the record of it, whatever
number the segment bears. The next segment then is to bear that number, nothing is in flight, and
the window is refunded and grown for that data segment. The number is the one just past the data if
the segment is what an end answers that has just received the data. The window is credited for
nothing else: it is what the data sent and these acknowledgments make of it, each data segment is
credited at most once, and the one in flight is not credited yet. -/
theorem acknowledgment_credits {c₀ : Connection} (h₀ : Reachable c₀) (hnone : c₀.inFlight = none)
    (ops : List Op) :
    let c := c₀.performAll ops
    (∀ n, c.inFlight = some n → ∃ a, c₀.lastData ops = some a ∧ Carries a n ∧
      (∀ kind s, kind.control.ack = true →
        ((∃ d, c.accept kind s = (d, .ok ())) ↔ c.done = false ∧
          kind.accepts s.header.control = true ∧ s.seqLenFits = true ∧
          (c.logData .recv n).2 = .ok ()) ∧
        ∀ d, c.accept kind s = (d, .ok ()) → d.nextSeq = s.header.ack ∧ d.inFlight = none ∧
          c.window.acknowledge (.data n) = .ok d.window) ∧
      (∀ p q q' r, record p a = .ok q → segment q .ack [] = (q', .ok r) →
        r.header.ack = a.header.seq + n)) ∧
    (c₀.journal ops).foldlM SendWindow.account c₀.window = .ok c.window ∧
    (Log.amounts .recv (c₀.journal ops) ++ c.inFlight.toList).Sublist
      (Log.amounts .send (c₀.journal ops)) := by
  intro c
  have h : c.Solvent := h₀.solvent.performAll ops
  refine ⟨fun n hn => ?_, h₀.solvent.window_journal ops, ?_⟩
  · obtain ⟨a, hlast, ha⟩ | ⟨-, hf⟩ := h₀.solvent.inFlight_lastData ops hn
    · exact ⟨a, hlast, ha, fun kind s hk => ⟨h.accept_iff hn hk s, fun d => h.accept_credits hn hk⟩,
        fun p q q' r => ha.ack_number⟩
    · cases hnone.symm.trans hf
  · have hsub := h₀.solvent.credited_sublist ops
    rw [hnone] at hsub
    exact hsub

/-- A number beyond anything that was sent does as well as the right one. -/
theorem acknowledgment_credits_forged :
    ((opened {} .active none).performAll threeBytes).inFlight = some 3 ∧
    ∃ d, ((opened {} .active none).performAll threeBytes).accept .ack (ackOf 1000) = (d, .ok ()) ∧
      d.nextSeq = 1000 ∧ d.inFlight = none := by
  have hn : ((opened {} .active none).performAll threeBytes).inFlight = some 3 := by
    decide +kernel
  obtain ⟨a, -, -, htaken, -⟩ :=
    (acknowledgment_credits (reachable_opened {} .active none) rfl threeBytes).1 3 hn
  obtain ⟨hiff, hdoes⟩ := htaken .ack (ackOf 1000) rfl
  obtain ⟨d, hd⟩ := hiff.2 ⟨by decide +kernel, by decide +kernel, by decide +kernel, rfl⟩
  exact ⟨hn, d, hd, (hdoes d hd).1, (hdoes d hd).2.1⟩

/-- **The number of an acknowledgment is not looked at**: it is not so that a segment that is taken
for the acknowledgment of the data in flight bears the number just past the data. -/
theorem forged_number_taken : ¬ ∀ c₀ ops n a kind s d, Reachable c₀ → c₀.inFlight = none →
    (c₀.performAll ops).inFlight = some n → c₀.lastData ops = some a → kind.control.ack = true →
    (c₀.performAll ops).accept kind s = (d, .ok ()) → s.header.ack = a.header.seq + n := by
  intro hall
  have hnumber := hall _ threeBytes 3 _ .ack (ackOf 1000) _ (reachable_opened {} .active none) rfl
    rfl rfl rfl rfl
  exact absurd hnumber (by decide +kernel)

end Connection

end StopWait
