import StopWait.Proofs.Transfer

/-!
# What a session's move leaves at its end

A transfer is about what two sessions send each other. Here is what their moves leave otherwise: the
requests that wait, the timers, and the events for the applications.

* `Endpoint.Drains`, `drains_actStack`: **a session takes requests in from the front**, and buffers
  what it has not read of them.
* `timer_actStack`, `timer_of_sending`: **a session has a timer only while it sends**, and then one
  that has not ended.
* `Serves.events`: **an application is told what the calls of its session say**, and nothing else.
-/

namespace StopWait.Link

open Session (Stage Response Message staged)

namespace Endpoint

/-- **An endpoint that has taken in requests** from the front, and bytes of theirs to the end of the
buffer, from whose front some may have been read. -/
def Drains (e f : Endpoint) : Prop :=
  ∃ taken, e.requests = taken ++ f.requests ∧
    f.buffer <:+ e.buffer ++ taken.flatMap Request.bytes

variable {e f g : Endpoint} {gone : Bool} {mask : Interest}

theorem drains_of_suffix (hr : f.requests = e.requests) (hb : f.buffer <:+ e.buffer) :
    e.Drains f :=
  ⟨[], hr.symm, by rwa [List.flatMap_nil, List.append_nil]⟩

theorem drains_of_eq (hr : f.requests = e.requests) (hb : f.buffer = e.buffer) : e.Drains f :=
  drains_of_suffix hr (hb ▸ List.suffix_refl _)

theorem Drains.refl (e : Endpoint) : e.Drains e := drains_of_eq rfl rfl

theorem Drains.trans (h : e.Drains f) (k : f.Drains g) : e.Drains g := by
  obtain ⟨taken, hr, hb⟩ := h
  obtain ⟨more, hr', hb'⟩ := k
  refine ⟨taken ++ more, by rw [hr, hr', List.append_assoc], ?_⟩
  obtain ⟨read, hread⟩ := hb
  rw [List.flatMap_append, ← List.append_assoc, ← hread, List.append_assoc]
  exact hb'.trans (List.suffix_append _ _)

theorem drains_intakeRequest (h : e.intakeRequest = some f) : e.Drains f := by
  unfold intakeRequest at h
  split at h
  · rename_i bytes rest hr
    obtain rfl := Option.some.inj h
    refine ⟨[.write bytes], hr, ?_⟩
    rw [List.flatMap_cons, List.flatMap_nil, List.append_nil]
    exact List.suffix_refl _
  · rename_i rest hr
    obtain rfl := Option.some.inj h
    refine ⟨[.close], hr, ?_⟩
    simp [Request.bytes]
  · split at h
    · obtain rfl := Option.some.inj h
      exact drains_of_eq rfl rfl
    · cases h

theorem drains_intake (h : e.intake gone mask = some f) : e.Drains f := by
  simp only [intake] at h
  split at h
  · rename_i d hd
    obtain rfl := Option.some.inj h
    split at hd
    · unfold intakeDatagram at hd
      split at hd
      · obtain rfl := Option.some.inj hd
        exact drains_of_eq rfl rfl
      · split at hd
        · obtain rfl := Option.some.inj hd
          exact drains_of_eq rfl rfl
        · cases hd
    · cases hd
  · split at h
    · exact drains_intakeRequest h
    · cases h

theorem drains_listen (e : Endpoint) (gone : Bool) (mask : Interest) :
    e.Drains (e.listen gone mask).1 := by
  fun_induction listen e gone mask with
  | case1 | case2 => exact .refl _
  | case3 e hv f hi ih => exact (drains_intake hi).trans ih

theorem drains_recv (e : Endpoint) (gone : Bool) (capacity : Nat) :
    e.Drains (e.recv gone capacity).1 := by
  unfold recv
  split <;> exact drains_of_eq rfl rfl

theorem drains_dropStack (e : Endpoint) : e.Drains e.dropStack :=
  ⟨e.requests, (List.append_nil _).symm, List.nil_suffix⟩

end Endpoint

variable {l : Link} {w : World} {side : Side} {timer : Option Nat} {call : Call} {c : Connection}
  {x : Stage} {left due : Nat} {results : List (Except Session.Error Unit)}

theorem drains_attempt : (l.ends.get side).Drains ((l.attempt side timer call).1.ends.get side) := by
  have hrefl := Endpoint.Drains.refl (l.ends.get side)
  have hdelivery : ∀ (m : Link) d due, m.ends = l.ends →
      (l.ends.get side).Drains ((m.attemptDelivery side d due).1.ends.get side) := by
    intro m d due hm
    unfold attemptDelivery
    split
    · rw [hm]
      exact hrefl
    · split <;> simp only [setEnd, Both.get_set_of_other, hm] <;> exact hrefl
  cases call with
  | wait mask =>
    have hlisten := (l.ends.get side).drains_listen (l.peerGone side) mask
    simp only [attempt, attemptWait]
    split
    · rename_i he
      rw [he] at hlisten
      simpa only [setEnd, Both.get_set_self] using hlisten
    · rename_i he
      rw [he] at hlisten
      split <;> simpa only [setEnd, Both.get_set_self] using hlisten
  | networkSend d =>
    cases timer with
    | some due => exact hdelivery l d due rfl
    | none =>
      simp only [attempt, attemptSend, handOver]
      split
      · exact hrefl
      · exact hdelivery _ d _ rfl
  | networkRecv n =>
    have hrecv := (l.ends.get side).drains_recv (l.peerGone side) n
    simp only [attempt, attemptRecv]
    split
    · rename_i he
      rw [he] at hrecv
      simpa only [setEnd, Both.get_set_self] using hrecv
    · rename_i he
      rw [he] at hrecv
      simpa only [setEnd, Both.get_set_self] using hrecv
  | appRecv n =>
    simp only [attempt, attemptRead, setEnd, Both.get_set_self]
    exact Endpoint.drains_of_suffix rfl (List.drop_suffix _ _)
  | appSend | finReceived | unblock =>
    simp only [attempt, attemptTell, Endpoint.tell, setEnd, Both.get_set_self]
    split <;> exact Endpoint.drains_of_eq rfl rfl

/-- **A session takes requests in from the front.** -/
theorem drains_actStack (hd : (w.hosts.get side).driver = .session (staged (c, x)) left results) :
    (w.link.ends.get side).Drains ((w.actStack side).1.link.ends.get side) := by
  have hrefl := Endpoint.Drains.refl (w.link.ends.get side)
  have hsession : ∀ timer, (w.link.ends.get side).Drains
      ((w.actSession side timer (staged (c, x)) left results).1.link.ends.get side) := by
    intro timer
    unfold World.actSession
    split
    · exact hrefl
    · rename_i p _
      have hattempt := @drains_attempt w.link side timer (p.call (staged (c, x)).connection)
      split <;> (rename_i hr; rw [hr] at hattempt; exact hattempt)
  simp only [World.actStack, hd, World.conclude]
  split
  · exact hrefl
  · split
    · split
      · simpa only [World.setStack, dropStack, setEnd, Both.get_set_self] using
          (w.link.ends.get side).drains_dropStack
      · exact hrefl
    · exact hsession _

/-- Only a send waits for a time, unless a wait may time out. -/
theorem timer_attempt (hidle : (l.ends.get side).idleTimeout = none)
    (h : (l.attempt side timer call).2 = .blocked (some due)) : ∃ d, call = .networkSend d := by
  cases call with
  | networkSend d => exact ⟨d, rfl⟩
  | wait mask =>
    rcases hl : (l.ends.get side).listen (l.peerGone side) mask with ⟨e, answer⟩
    rw [attempt_wait_eq hl hidle] at h
    cases answer <;> cases h
  | networkRecv n =>
    simp only [attempt, attemptRecv] at h
    split at h <;> cases h
  | _ => cases h

/-- **A session that is left with a timer sends**, and has not moved. -/
theorem timer_actStack (hd : (w.hosts.get side).driver = .session (staged (c, x)) left results)
    (hf : (w.hosts.get side).finished = false)
    (hidle : (w.link.ends.get side).idleTimeout = none)
    (h : ((w.actStack side).1.hosts.get side).timer = some due) :
    (w.actStack side).2 = false ∧ ∃ m bytes, x = .sending m bytes := by
  by_cases hdone : (w.hosts.get side).driver.isDone = true
  · -- a task that ends has no timer
    have hact : w.actStack side = (w.conclude side, true) := by
      rw [World.actStack, hf]
      simp only [Bool.false_eq_true, if_false, hdone, if_true]
    rw [hact] at h
    simp only [World.conclude] at h
    split at h <;> simp only [World.setStack, Both.get_set_self] at h <;> cases h
  have hact : w.actStack side =
      w.actSession side (w.hosts.get side).timer (staged (c, x)) left results := by
    rw [hd, Bool.not_eq_true] at hdone
    simp only [World.actStack, hf, hd, hdone, Bool.false_eq_true, if_false]
  rw [hact] at h ⊢
  cases hp : (staged (c, x)).point? with
  | none =>
    simp only [World.actSession, hp, World.advance, World.setStack, Both.get_set_self] at h
    cases h
  | some p =>
    have htimer := @timer_attempt w.link side (w.hosts.get side).timer
      (p.call (staged (c, x)).connection) due hidle
    simp only [World.actSession, hp] at h ⊢
    rcases hr : w.link.attempt side (w.hosts.get side).timer
      (p.call (staged (c, x)).connection) with ⟨m, progress⟩
    rw [hr] at h htimer
    cases progress with
    | ready a =>
      simp only [World.advance, World.setStack, Both.get_set_self] at h
      cases h
    | blocked timer =>
      simp only [World.hold, World.setStack, Both.get_set_self] at h
      obtain ⟨d, hd⟩ := htimer (by rw [h])
      refine ⟨rfl, ?_⟩
      cases x with
      | sending m bytes => exact ⟨m, bytes, rfl⟩
      | ready | failed | ended => cases hp
      | _ => cases hp; cases hd

/-- A datagram on a lossless network is delivered or under way, if the peer is there and has room. -/
theorem attemptSend_cases {d : List UInt8} (hlossless : l.network.Lossless)
    (hthere : (l.ends.get side.other).stackGone = false)
    (hroom : (l.ends.get side.other).inbox.length < inboxCapacity) :
    (l.attemptSend side d timer).2 = .ready (.ok d.length) ∨
      ∃ due, (l.attemptSend side d timer).2 = .blocked (some due) ∧ l.now < due := by
  have hdelivery : ∀ (m : Link) due, m.ends = l.ends → m.now = l.now →
      (m.attemptDelivery side d due).2 = .ready (.ok d.length) ∨
        (m.attemptDelivery side d due).2 = .blocked (some due) ∧ l.now < due := by
    intro m due hends hnow
    by_cases hdue : m.now < due
    · refine .inr ⟨?_, hnow ▸ hdue⟩
      rw [attemptDelivery]
      exact congrArg Prod.snd (if_pos hdue)
    · exact .inl (attemptDelivery_of_due (hends ▸ hthere) (hends ▸ hroom) (Nat.le_of_not_lt hdue))
  cases timer with
  | some due => exact (hdelivery l due rfl rfl).imp_right fun h => ⟨due, h⟩
  | none =>
    obtain ⟨delay, hdispatch⟩ := hlossless.dispatch
    rw [attemptSend_of_lossless hdispatch]
    exact (hdelivery { l with handed := d :: l.handed } (l.now + delay) rfl rfl).imp_right
      fun h => ⟨_, h⟩

/-- **A session that sends and cannot move has a timer**, which has not ended. -/
theorem timer_of_sending {m : Message} {bytes : List UInt8}
    (hd : (w.hosts.get side).driver = .session (staged (c, .sending m bytes)) left results)
    (hf : (w.hosts.get side).finished = false) (hlossless : w.link.network.Lossless)
    (hthere : (w.link.ends.get side.other).stackGone = false)
    (hroom : (w.link.ends.get side.other).inbox.length < inboxCapacity)
    (hmade : (w.actStack side).2 = false) :
    ∃ due, ((w.actStack side).1.hosts.get side).timer = some due ∧ w.link.now < due := by
  have hst : staged (c, .sending m bytes) = ⟨c, .suspended
      (.sending (c.reissue m.kind (m.payload bytes)) (m.todo bytes))⟩ := rfl
  have hsend := @attemptSend_cases w.link side (w.hosts.get side).timer
    (c.reissue m.kind (m.payload bytes)).serialize hlossless hthere hroom
  rw [actStack_session w side hd hf (.inl rfl), hst] at hmade ⊢
  simp only [World.actSession, Session.point?, Point.call, attempt] at hmade ⊢
  rcases hr : w.link.attemptSend side (c.reissue m.kind (m.payload bytes)).serialize
    (w.hosts.get side).timer with ⟨l', progress⟩
  rw [hr] at hmade hsend
  obtain hready | ⟨due, hblocked, hdue⟩ := hsend
  · obtain rfl : progress = .ready (.ok _) := hready
    cases hmade
  · obtain rfl : progress = .blocked (some due) := hblocked
    refine ⟨due, ?_, hdue⟩
    simp only [World.hold, World.setStack, Both.get_set_self]

/-- What an application is told in a move. -/
def toldIn (o : Option (Call × Response)) : List Notice :=
  o.elim [] fun d => if d.2 = .told then (noticeOf d.1).toList else []

variable {losable : Prop} {e e' f f' : Endpoint} {r : Response} {c₀ : Connection}
  {t t' : StackTask} {d : Option Deed} {o : Option (Call × Response)} {moved : Bool}

theorem Exchange.events (h : Exchange losable e f call r e' f') :
    e'.events = e.events ++ toldIn (some (call, r)) := by
  cases h with
  | event heard | timeout heard | deaf heard => exact heard.events.trans (List.append_nil _).symm
  | received taken kept => exact (congrArg Endpoint.events kept).symm.trans (List.append_nil _).symm
  | told hn =>
    simp only [toldIn, Option.elim, hn, if_true]
    rfl
  | _ => exact (List.append_nil _).symm

/-- **An application is told what the calls of its session say**, and nothing else. -/
theorem Serves.events (h : Serves losable c₀ c x side t left results e f d t' e' f' moved)
    (hd : d = o.map fun y => .stack side y.1 y.2) : e'.events = e.events ++ toldIn o := by
  -- nothing is told in a move that answers no call
  have hnone : ∀ {g : Endpoint}, g.events = e.events → none = o.map (fun y => Deed.stack side y.1 y.2) →
      g.events = e.events ++ toldIn o := by
    intro g hg ho
    rw [Option.map_eq_none_iff.1 ho.symm, hg]
    exact (List.append_nil _).symm
  cases h with
  | sits => exact hnone rfl hd
  | waits hp same => exact hnone same.events hd
  | ends =>
    refine hnone ?_ hd
    split <;> rfl
  | begins => exact hnone rfl hd
  | answers hp hr =>
    cases o with
    | none => cases hd
    | some y =>
      obtain ⟨call, r⟩ := y
      simp only [Option.map_some, Option.some.injEq, Deed.stack.injEq, true_and] at hd
      obtain ⟨rfl, rfl⟩ := hd
      exact hr.events

end StopWait.Link
