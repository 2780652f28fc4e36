import StopWait.Proofs.Stage

/-!
# Turns of a session

A session at a stage does what the stage says.

* `Leads`: a stop is where a turn ends, and the connection fits there.
* `resumeAt_leads`, `start_leads`: **an answer leads where its turn ends, and a run begins as its
  opening says.**
* `Connection.reopening`, `start_of_ne_listen`: a session whose connection has left LISTEN does not
  begin another run.
* `begins_start`: the two ways in which a run begins.
-/

namespace StopWait

/-- The error of a connection that has left LISTEN and is opened again. -/
def Connection.reopening (c : Connection) : Connection.Error :=
  if c.done then .closed else .contractViolation ⟨c.state, .start c.role⟩

/-- **No state but LISTEN is opened.** -/
theorem State.on_start_of_ne_listen {st : State} (hne : st ≠ .listen) (role : Role) :
    st.on (.start role) = .error ⟨st, .start role⟩ := by
  have hnone : st.transition? (.start role) = none := by
    cases st <;> first | exact absurd rfl hne | rfl
  rw [on, hnone]

theorem Connection.apply_start {c : Connection} (hne : c.state ≠ .listen) :
    c.apply (.start c.role) = .error c.reopening := by
  unfold apply reopening
  by_cases hd : c.done = true
  · rw [if_pos hd, if_pos hd]
  · rw [if_neg hd, if_neg hd, State.on_start_of_ne_listen hne]
    rfl

namespace Session

open Connection (Op)

variable {c₀ c d : Connection} {bytes : List UInt8} {stop : Stop} {t : Turn} {x : Stage}

/-- **A stop is where a turn ends**, and the connection fits there. -/
structure Leads (c₀ : Connection) (stop : Stop) (c : Connection) (t : Turn) : Prop where
  stop : stop.1 = staged (carry c t)
  fits : (carry c t).2.Fits c₀ (carry c t).1

theorem Leads.after (h : Leads c₀ stop c t) (events : List Trace) :
    Leads c₀ (stop.after events) c t := ⟨h.stop, h.fits⟩

theorem leads_abort (h : c = c₀ ∨ c.state ≠ .listen) (e : Session.Error) :
    Leads c₀ (abort c e) c ([], .failed e) := ⟨rfl, h⟩

theorem carry_prepend {op : Op} (ops : List Op) (h : c.perform op = (d, none)) :
    carry c (prepend (op :: ops) t) = carry d (prepend ops t) := by
  simp only [carry, prepend, List.cons_append, Connection.attempt, h]

theorem apply_eq {trigger : Trigger} {r : Transition} (hd : c.done = false)
    (hr : c.state.on trigger = .ok r) :
    c.apply trigger = .ok (r, { c with state := r.next }) := by
  simp [Connection.apply, hd, hr]

theorem perform_apply {trigger : Trigger} {r : Transition} (hd : c.done = false)
    (hr : c.state.on trigger = .ok r) :
    c.perform (.apply trigger) = ({ c with state := r.next }, none) := by
  simp only [Connection.perform, apply_eq hd hr]

theorem perform_record (hd : c.done = false) {s : Segment} (hfits : s.seqLenFits = true) :
    c.perform (.record s) = (c.noteReceived s, none) := by
  simp only [Connection.perform, Connection.record_eq hd hfits]

/-- A trigger that is taken leads where its transition leads. -/
theorem leads_feed {trigger : Trigger} {r : Transition} (hd : c.done = false)
    (hr : c.state.on trigger = .ok r)
    (h : Leads c₀ (proceed { c with state := r.next } bytes r.actions r.followUp)
      { c with state := r.next } t) :
    Leads c₀ (feed c trigger bytes) c (prepend [.apply trigger] t) := by
  have hc := carry_prepend (t := t) [] (perform_apply hd hr)
  have hf : feed c trigger bytes =
      (proceed { c with state := r.next } bytes r.actions r.followUp).after
        (stateChange c { c with state := r.next }) := by
    simp only [feed, apply_eq hd hr]
  constructor
  · rw [hf, hc]
    exact h.stop
  · rw [hc]
    exact h.fits

theorem Message.state_ne_listen (m : Message) : m.state ≠ .listen := by cases m <;> decide

/-- What a stage of a run asks for, where no data segment is on its way. -/
theorem Stage.Live.of_free (h : c.Free x.state) (hf : x.flies = false) (hs : x.Sound) :
    x.Live c :=
  ⟨h.state, h.undone, h.balanced, by rw [h.flight, hf]; rfl, hs⟩

theorem leads_transmit (m : Message) (h : c.Free m.state)
    (hp : m = .data → bytes ≠ [] ∧ bytes.length ≤ mss.toNat) :
    Leads c₀ (transmit c m.kind (m.payload bytes) (m.todo bytes)) c (m.begin bytes) := by
  -- where the segment is built the stage is reached, and where it is not the run fails
  have hstop : ∀ d r, c.segment m.kind (m.payload bytes) = (d, r) →
      (∀ e, r = .error e → d.state ≠ .listen) →
      (∀ s, r = .ok s → (Stage.sending m bytes).Fits c₀ d) →
      Leads c₀ (transmit c m.kind (m.payload bytes) (m.todo bytes)) c (m.begin bytes) := by
    intro d r hs herr hok
    cases r with
    | error e =>
      have hc : carry c (m.begin bytes) = (d, .failed (.connection e)) := by
        simp only [carry, Message.begin, Connection.attempt, Connection.perform, hs]
      refine ⟨by rw [hc]; simp only [transmit, hs]; rfl, ?_⟩
      rw [hc]
      exact .inr (herr e rfl)
    | ok s =>
      have hc : carry c (m.begin bytes) = (d, .sending m bytes) := by
        simp only [carry, Message.begin, Connection.attempt, Connection.perform, hs]
      refine ⟨?_, by rw [hc]; exact hok s rfl⟩
      rw [hc]
      simp only [transmit, hs, Connection.reissue_of_segment hs]
      rfl
  by_cases hm : m = .data
  · obtain ⟨hne, hlen⟩ := hp hm
    subst hm
    obtain ⟨d, e, hs, hst, -⟩ | ⟨d, s, hs, hst, hd, hb, hf⟩ := h.data hne hlen
    · exact hstop d _ hs (fun _ _ => by rw [hst]; decide) (fun s hs => by cases hs)
    · refine hstop d _ hs (fun e he => by cases he) fun _ _ => ⟨⟨hst, hd, hb, ?_, hne, hlen⟩, ?_⟩
      · rw [hf]
        rfl
      · intro hl
        rw [hst] at hl
        cases hl
  · have hk : m.kind ≠ .data := by cases m <;> first | exact absurd rfl hm | decide
    -- a control segment is always built
    obtain ⟨hs, hfree⟩ := h.control hk
    have hpay : m.payload bytes = [] := if_neg hm
    rw [← hpay] at hs hfree
    refine hstop _ _ hs (fun e he => by cases he) fun _ _ => ⟨?_, ?_⟩
    · exact .of_free hfree (by cases m <;> first | exact absurd rfl hm | rfl)
        (by cases m <;> first | exact absurd rfl hm | trivial)
    · intro hl
      exact absurd (hfree.state.symm.trans hl) m.state_ne_listen

theorem leads_send (m : Message) (h : c.Free m.state)
    (hp : m = .data → bytes ≠ [] ∧ bytes.length ≤ mss.toNat) :
    Leads c₀ (proceed c bytes (.send m.kind :: m.rest.1) m.rest.2) c (m.begin bytes) := by
  have heq : proceed c bytes (.send m.kind :: m.rest.1) m.rest.2 =
      transmit c m.kind (m.payload bytes) (m.todo bytes) := by
    cases m with
    | data => simp only [Message.kind, proceed]; rfl
    | _ => rw [proceed] <;> first | rfl | simp [Message.kind]
  rw [heq]
  exact leads_transmit m h hp

theorem leads_deliver (a : Arrival) (h : c.Free a.message.state) :
    Leads c₀ (proceed c bytes (.deliver :: .send .ack :: a.message.rest.1) a.message.rest.2) c
      (a.begin bytes) := by
  rw [proceed, Arrival.begin]
  split
  · -- no payload is handed over, and the acknowledgment goes out at once
    have hk : a.message.kind = .ack := by cases a <;> rfl
    rw [← hk]
    exact leads_send a.message h (by cases a <;> simp [Arrival.message])
  · rename_i hne
    refine ⟨rfl, .of_free h rfl ?_, ?_⟩
    · intro hnil
      exact hne (by rw [hnil]; rfl)
    · intro hl
      exact absurd (h.state.symm.trans hl) a.message.state_ne_listen

theorem leads_idle (h : c.Free .established) : Leads c₀ (proceed c bytes [] .rest) c ([], .idle) := by
  rw [proceed]
  constructor
  · simp only [settle, Connection.finishes, h.undone, h.state]
    rfl
  · exact ⟨.of_free h rfl trivial, fun hl => by cases h.state.symm.trans hl⟩

theorem leads_ended (h : c.Free .closed) :
    Leads c₀ (proceed c bytes [] .rest) c ([.finish], .ended) := by
  have hf : c.finishes = true := by simp [Connection.finishes, h.undone, h.state]
  have hc : carry c ([.finish], .ended) = (c.finish, .ended) := rfl
  rw [proceed]
  constructor
  · rw [hc]
    simp only [settle, hf, if_true]
    rfl
  · rw [hc, Connection.finish, if_pos hf]
    exact ⟨rfl, h.state⟩

theorem leads_close (h : c.Free .closeWait) :
    Leads c₀ (proceed c bytes [] .close) c
      (prepend [.apply .close] (Message.lastFin.begin bytes)) := by
  have hr : c.state.on .close = .ok ⟨.lastAck, [.send .fin], .await .ack⟩ := by
    rw [h.state]
    rfl
  have hp : proceed c bytes [] .close =
      (proceed { c with state := .lastAck } bytes [.send .fin] (.await .ack)).after
        (stateChange c { c with state := .lastAck }) := by
    -- only the left side is the function to open
    conv => lhs; rw [proceed]
    split
    · rename_i e he
      rw [apply_eq h.undone hr] at he
      cases he
    · rename_i r d he
      rw [apply_eq h.undone hr] at he
      cases he
      rfl
  have hc := carry_prepend (t := Message.lastFin.begin bytes) [] (perform_apply h.undone hr)
  have hs : Leads c₀ (proceed { c with state := .lastAck } bytes [.send .fin] (.await .ack))
      { c with state := .lastAck } (Message.lastFin.begin bytes) :=
    leads_send .lastFin h.move (by simp)
  exact ⟨by rw [hp, hc]; exact hs.stop, by rw [hc]; exact hs.fits⟩

/-- A segment that is sent and awaits an answer, or is followed by another call. -/
theorem leads_suspend {p : Point} (h : x.Live c) (hne : c.state ≠ .listen)
    (hx : x.Fits c₀ c ↔ x.Live c ∧ (c.state = .listen → c = c₀))
    (hp : x.status c = .suspended p) : Leads c₀ (suspend c p) c ([], x) := by
  refine ⟨?_, hx.2 ⟨h, fun hl => absurd hl hne⟩⟩
  rw [suspend, staged, carry, Connection.attempt]
  simp only [hp]

/-- What comes after a message was sent. -/
theorem leads_sent (m : Message) (h : (Stage.sending m bytes).Live c) :
    Leads c₀ (carryOn c (m.todo bytes)) c (m.after bytes) := by
  have hne : c.state ≠ .listen := h.state ▸ m.state_ne_listen
  have hfree : m ≠ .data → c.Free m.state := by
    intro hm
    refine ⟨h.state, h.undone, h.balanced, ?_⟩
    have := h.flight
    cases m <;> first | exact absurd rfl hm | simpa [Stage.flies] using this
  cases m with
  | dataAck => exact leads_idle (hfree (by simp))
  | closeAck => exact leads_ended (hfree (by simp))
  | data =>
    simp only [carryOn, Message.todo, Message.rest]
    rw [proceed]
    exact leads_suspend ⟨h.state, h.undone, h.balanced, h.flight, trivial⟩ hne .rfl rfl
  | _ =>
    simp only [carryOn, Message.todo, Message.rest]
    rw [proceed]
    exact leads_suspend (.of_free (hfree (by simp)) rfl trivial) hne .rfl rfl

theorem leads_counted (m : Message) (s : Segment) (count : Nat)
    (h : (Stage.sending m bytes).Live c) :
    Leads c₀ (onSent c s (m.todo bytes) count) c
      (if count = 0 then ([], .failed .nonPositiveSend) else m.after bytes) := by
  rw [onSent]
  split
  · exact leads_abort (.inr (h.state ▸ m.state_ne_listen)) _
  · exact (leads_sent m h).after _

theorem leads_delivered (a : Arrival) (h : c.Free a.message.state) :
    Leads c₀ (carryOn c ⟨bytes, .send .ack :: a.message.rest.1, a.message.rest.2⟩) c
      (a.message.begin bytes) := by
  have hk : a.message.kind = .ack := by cases a <;> rfl
  rw [← hk]
  exact leads_send a.message h (by cases a <;> nofun)

theorem leads_arrived (w : Wait) (h : c.Free w.state) :
    Leads c₀ (feed c (.arrived w.kind) bytes) c
      (prepend [.apply (.arrived w.kind)] (w.after bytes)) := by
  cases w with
  | syn => exact leads_feed h.undone (by rw [h.state]; rfl) (leads_send .synAck h.move (by simp))
  | synAck => exact leads_feed h.undone (by rw [h.state]; rfl) (leads_send .openAck h.move (by simp))
  | opening =>
    refine leads_feed h.undone (by rw [h.state]; rfl) ?_
    rw [proceed]
    exact leads_suspend (.of_free h.move rfl trivial) (by simp) .rfl rfl
  | data => exact leads_feed h.undone (by rw [h.state]; rfl) (leads_idle h.move)
  | fin =>
    refine leads_feed h.undone (by rw [h.state]; rfl) ?_
    rw [proceed]
    exact leads_suspend (.of_free h.move rfl trivial) (by simp) .rfl rfl
  | peerFin => exact leads_feed h.undone (by rw [h.state]; rfl) (leads_deliver .lastFin h.move)
  | lastFin => exact leads_feed h.undone (by rw [h.state]; rfl) (leads_ended h.move)

theorem Stage.Live.free (h : x.Live c) (hf : x.flies = false) : c.Free x.state :=
  ⟨h.state, h.undone, h.balanced, by simpa [hf] using h.flight⟩

/-- An awaited segment that is refused ends the run. -/
theorem carry_take_of_error {w : Wait} {s : Segment} {e : Connection.Error}
    (hs : c.accept w.kind s = (d, .error e)) :
    carry c (w.take s) = (d, .failed (.connection e)) := by
  simp only [carry, Wait.take, prepend, List.cons_append, Connection.attempt,
    Connection.perform, hs]

/-- An awaited segment that is taken in is noted, and nothing is in flight any more. -/
theorem Stage.Live.of_accept {w : Wait} {s : Segment} (h : (Stage.receiving w).Live c)
    (hs : c.accept w.kind s = (d, .ok ())) :
    c.perform (.accept w.kind s) = (d, none) ∧ d.Free w.state := by
  refine ⟨by simp only [Connection.perform, hs], ?_⟩
  refine (h.balanced.free_of_accept ?_ hs).trans h.state
  -- a SYN and the peer's FIN bring no acknowledgment, and none is awaited
  cases w with
  | syn | peerFin => exact .inr (h.free rfl).flight
  | _ => exact .inl rfl

theorem leads_takeAwaited (w : Wait) (s : Segment) (h : (Stage.receiving w).Live c)
    (hl : c.state = .listen → c = c₀) : Leads c₀ (takeAwaited c w.kind s) c (w.take s) := by
  rcases hs : c.accept w.kind s with ⟨d, r⟩
  cases r with
  | error e =>
    have hc := carry_take_of_error hs
    obtain ⟨hst, -, hd⟩ := h.balanced.of_accept_error hs
    refine ⟨by rw [hc]; simp only [takeAwaited, hs]; rfl, ?_⟩
    rw [hc]
    show d = c₀ ∨ d.state ≠ .listen
    -- only the segment awaited in LISTEN leaves the connection of the beginning
    cases w with
    | syn => exact .inl ((hd rfl).trans (hl h.state))
    | _ => exact .inr (by rw [hst, h.state]; decide)
  | ok u =>
    obtain ⟨hp, hfree⟩ := h.of_accept hs
    have harr : Leads c₀ (feed d (.arrived w.kind) s.payload) d
        (prepend [.apply (.arrived w.kind)] (w.after s.payload)) := leads_arrived w hfree
    have hc := carry_prepend (t := w.after s.payload) [.apply (.arrived w.kind)] hp
    refine ⟨?_, by rw [Wait.take, hc]; exact harr.fits⟩
    rw [Wait.take, hc]
    simp only [takeAwaited, hs]
    exact harr.stop

/-- What a segment leads to that arrives while nothing is awaited. -/
theorem leads_arrive {s : Segment} (hfits : s.seqLenFits = true) (h : c.Free .established) :
    Leads c₀ (arrive c s) c (arrival s) := by
  have hne : c.state ≠ .listen := by rw [h.state]; decide
  have hrec := Connection.record_eq h.undone hfits
  have hp := perform_record h.undone hfits
  have hfree : (c.noteReceived s).Free .established := h.noteReceived
  -- data and FIN are noted and drive the state machine alike
  have htake : ∀ {kind : Kind} {t : Turn},
      Leads c₀ (feed (c.noteReceived s) (.arrived kind) s.payload) (c.noteReceived s)
        (prepend [.apply (.arrived kind)] t) →
      Leads c₀ (arrive.takeIn c s kind) c (prepend [.record s, .apply (.arrived kind)] t) := by
    intro kind t hl
    have hc := carry_prepend (t := t) [.apply (.arrived kind)] hp
    have ht : arrive.takeIn c s kind = feed (c.noteReceived s) (.arrived kind) s.payload := by
      simp only [arrive.takeIn, hrec]
    exact ⟨by rw [ht, hc]; exact hl.stop, by rw [hc]; exact hl.fits⟩
  unfold arrive arrival
  split
  · exact htake (leads_feed hfree.undone (by rw [hfree.state]; rfl)
      (leads_deliver .peerFin hfree.move))
  · split
    · have hlive : Stage.idle.Live c := .of_free h rfl trivial
      exact (leads_suspend hlive hne .rfl rfl).after _
    · exact htake (leads_feed hfree.undone (by rw [hfree.state]; rfl)
        (leads_deliver .data hfree.move))

theorem leads_receive {take : Segment → Stop} {turn : Segment → Turn}
    (hfail : c = c₀ ∨ c.state ≠ .listen)
    (h : ∀ s, s.seqLenFits = true → Leads c₀ (take s) c (turn s)) :
    Leads c₀ (receive c bytes take) c (readSegment bytes turn) := by
  unfold receive readSegment
  cases hs : Segment.parse (bytes.take receiveCapacity) with
  | error e => exact leads_abort hfail _
  | ok s => exact (h s (seqLenFits_of_receive hs)).after _

theorem leads_event (e : Event) (h : c.Free .established) :
    Leads c₀ (onEvent c e) c (idleTurn e) := by
  have hne : c.state ≠ .listen := by rw [h.state]; decide
  cases e with
  | networkData => exact leads_suspend (.of_free h rfl trivial) hne .rfl rfl
  | appData => exact leads_suspend (.of_free h rfl trivial) hne .rfl rfl
  | appCloseRequested =>
    exact leads_feed h.undone (by rw [h.state]; rfl) (leads_send .fin h.move nofun)
  | timeout => exact leads_abort (.inr hne) _

/-- What the bytes that the application had lead to. The budget is a full segment. -/
theorem leads_fetched (bytes : List UInt8) (h : c.Free .established) :
    Leads c₀ (onFetched c bytes) c (fetchTurn bytes) := by
  have hne : c.state ≠ .listen := by rw [h.state]; decide
  simp only [onFetched, fetchTurn, h.balanced.budget_eq h.flight]
  split
  · exact leads_abort (.inr hne) _
  · rename_i hb
    refine leads_feed h.undone (by rw [h.state]; rfl) (leads_send .data h.move fun _ => ⟨?_, ?_⟩)
    · intro hnil
      exact hb (by rw [hnil]; rfl)
    · rw [List.length_take]
      omega

/-- **A session does what its stage says.** Resumed with an answer, it stops where the turn of the
response ends. -/
theorem resumeAt_leads {p : Point} (h : x.Fits c₀ c) (hp : x.status c = .suspended p)
    (a : (p.call c).Answer) : Leads c₀ (resumeAt c p a) c (x.turn (response _ a)) := by
  -- a failure of the stack aborts at every stage
  have habort : ∀ {x : Stage} e, x.Live c ∧ (c.state = .listen → c = c₀) →
      Leads c₀ (abort c (.stack e)) c ([], .failed (.stack e)) := by
    intro x e hx
    by_cases hl : c.state = .listen
    · exact leads_abort (.inl (hx.2 hl)) _
    · exact leads_abort (.inr hl) _
  cases x with
  | ready | failed | ended => cases hp
  | idle =>
    cases hp
    cases a with
    | error e => exact habort e h
    | ok e => exact leads_event e (h.1.free rfl)
  | reading =>
    cases hp
    cases a with
    | error e => exact habort e h
    | ok bytes =>
      have hfree : c.Free .established := h.1.free rfl
      exact leads_receive (.inr (by rw [hfree.state]; decide)) fun s hs => leads_arrive hs hfree
  | fetching =>
    cases hp
    cases a with
    | error e => exact habort e h
    | ok bytes => exact leads_fetched bytes (h.1.free rfl)
  | awaiting w =>
    cases hp
    cases a with
    | error e => exact habort e h
    | ok e =>
      have hfail : c = c₀ ∨ c.state ≠ .listen :=
        (Classical.em (c.state = .listen)).imp_left h.2
      cases e with
      | networkData =>
        exact ⟨rfl, ⟨h.1.state, h.1.undone, h.1.balanced,
          h.1.flight.trans (by cases w <;> rfl), trivial⟩, h.2⟩
      | _ => exact leads_abort hfail _
  | receiving w =>
    cases hp
    cases a with
    | error e => exact habort e h
    | ok bytes =>
      exact leads_receive ((Classical.em (c.state = .listen)).imp_left h.2)
        fun s _ => leads_takeAwaited w s h.1 h.2
  | sending m bytes =>
    cases hp
    cases a with
    | error e => exact habort e h
    | ok n =>
      exact leads_counted m _ n h.1
  | delivering arr bytes =>
    cases hp
    cases a with
    | error e => exact habort e h
    | ok u => exact leads_delivered arr (h.1.free rfl)
  | signalling bytes =>
    cases hp
    cases a with
    | error e => exact habort e h
    | ok u => exact leads_close (h.1.free rfl)
  | unblocking bytes =>
    cases hp
    cases a with
    | error e => exact habort e h
    | ok u => exact leads_idle (h.1.free rfl)

/-- **A run begins as its opening says**, for a connection in LISTEN. -/
theorem start_leads (h : c.Free .listen) : Leads c (start (staged (c, x))) c (opening c.role) := by
  have hstart : start (staged (c, x)) = feed c (.start c.role) [] := rfl
  rw [hstart]
  cases hr : c.role with
  | active => exact leads_feed h.undone (by rw [h.state]; rfl) (leads_send .syn h.move nofun)
  | passive =>
    -- in LISTEN the state machine stays where it is
    have hc : { c with state := .listen } = c := by rw [← h.state]
    have hr : c.state.on (.start .passive) = .ok ⟨.listen, [], .await .syn⟩ := by
      rw [h.state]
      rfl
    have hs : Leads c (proceed { c with state := .listen } [] [] (.await .syn))
        { c with state := .listen } ([], .awaiting .syn) := by
      rw [proceed]
      exact ⟨rfl, .of_free h.move rfl trivial, fun _ => hc⟩
    exact leads_feed h.undone hr hs

theorem start_of_apply_error {e : Connection.Error} (he : c.apply (.start c.role) = .error e) :
    (start (staged (c, x))).1 = staged (c, .failed (.connection e)) := by
  have hstart : start (staged (c, x)) = feed c (.start c.role) [] := rfl
  rw [hstart, feed, he]
  rfl

/-- **A session whose connection has left LISTEN does not begin another run**: it fails at once. -/
theorem start_of_ne_listen (hne : c.state ≠ .listen) :
    (start (staged (c, x))).1 = staged (c, .failed (.connection c.reopening)) :=
  start_of_apply_error (Connection.apply_start hne)

/-- The two ways in which a run begins: the connection opens, or it has been open before. -/
inductive Begins (c₀ c : Connection) : Connection × Stage → Prop where
  | opens (first : c = c₀) : Begins c₀ c (carry c₀ (opening c₀.role))
  | again {e : Session.Error} (h : c.state ≠ .listen) : Begins c₀ c (c, .failed e)

/-- **A run begins in one of the two ways.** -/
theorem begins_start (h₀ : c₀.Free .listen) (hfits : x.Fits c₀ c) :
    ∃ y, Begins c₀ c y ∧ (staged (c, x)).start.1 = staged y := by
  by_cases hl : c.state = .listen
  · obtain rfl := hfits.eq_of_listen hl
    exact ⟨_, .opens rfl, (start_leads h₀).stop⟩
  · exact ⟨_, .again hl, start_of_ne_listen hl⟩

theorem Begins.fits {y : Connection × Stage} (h₀ : c₀.Free .listen) (hy : Begins c₀ c y) :
    y.2.Fits c₀ y.1 := by
  cases hy with
  | opens => exact (start_leads (x := .ready) h₀).fits
  | again h => exact .inr h

end Session

end StopWait
