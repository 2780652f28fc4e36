import StopWait.Proofs.Figures

/-!
# The journal of a connection

What the transfer log says about a connection whose sink refuses nothing, beside what was done with
the connection.

* `Log.Alternates`: sends and acknowledgments take turns, and are of the same length.
* `Connection.journal`: **the records of what was done**, told without the log.
* `Connection.Account`, `Solvent.perform_account`: **what an operation makes of the window and of
  what is in flight**.
* `Connection.perform_of_error`: an operation that fails leaves everything as it was.
* `Connection.log_faithful`: **the transfer log reads back as the journal**, which alternates and
  passes the audit.
-/

namespace StopWait.Log

/-- **Records that take turns**, the first one of a send. Each acknowledgment has the length of the
send before it. The send that is not acknowledged yet, if there is one, has the length given. -/
inductive Alternates : List Record → Option UInt32 → Prop where
  | nil : Alternates [] none
  | send {rs : List Record} {r : Record} (h : Alternates rs none) (hr : r.direction = .send) :
    Alternates (rs ++ [r]) (some r.bytes)
  | recv {rs : List Record} {r : Record} (h : Alternates rs (some r.bytes))
    (hr : r.direction = .recv) : Alternates (rs ++ [r]) none

end StopWait.Log

namespace StopWait.Connection

/-- The record of an operation, unless it fails. -/
def posted (c : Connection) (op : Op) : List Log.Record :=
  if (c.perform op).2.isNone then (c.due op).toList else []

/-- **The records of what was done**: one for each data segment that was sent and one for each that
was acknowledged, with the send window and the remainder just before. -/
def journal (c : Connection) : List Op → List Log.Record
  | [] => []
  | op :: ops => c.posted op ++ (c.perform op).1.journal ops

/-- The data segment that an operation sends. -/
def dataSent (c : Connection) : Op → Option Segment
  | .segment .data payload => (c.segment .data payload).2.toOption
  | _ => none

/-- A data segment of `len` bytes, which is at least one and at most `mss`. -/
structure Carries (a : Segment) (len : UInt32) : Prop where
  control : a.header.control = Kind.data.control
  length : a.payload.length = len.toNat
  range : 1 ≤ len.toNat ∧ len.toNat ≤ mss.toNat

/-- **What an operation makes of the window and of what is in flight**: its error if it fails, the
data segment that it sends and its records in the journal. -/
inductive Account (c d : Connection) :
    Option Connection.Error → Option Segment → List Log.Record → Prop where
  /-- It is not about data. -/
  | idle {e : Option Connection.Error} (hw : d.window = c.window) (hf : d.inFlight = c.inFlight) :
    Account c d e none []
  /-- What is in flight is lost with the record of its acknowledgment. -/
  | loses {e : Connection.Error} (hw : d.window = c.window) (hd : d.inFlight = none) :
    Account c d (some e) none []
  /-- It sends data. -/
  | spends {a : Segment} {len : UInt32} (hc : c.inFlight = none) (hd : d.inFlight = some len)
    (hw : d.window = c.window.spend len) (ha : Carries a len) :
    Account c d none (some a) [c.entry .send len]
  /-- It takes in the acknowledgment of what is in flight. -/
  | credits {len : UInt32} (hc : c.inFlight = some len) (hd : d.inFlight = none)
    (hw : c.window.acknowledge (.data len) = .ok d.window) :
    Account c d none none [c.entry .recv len]

variable {c d : Connection} {op : Op} {records : List Log.Record} {kind : Kind} {s : Segment}

theorem dataSent_control (hk : kind ≠ .data) (payload : List UInt8) :
    c.dataSent (.segment kind payload) = none := by
  cases kind <;> first | exact absurd rfl hk | rfl

theorem carries_compose {payload : List UInt8} (hp : payload ≠ [])
    (hlen : payload.length ≤ mss.toNat) :
    Carries (c.compose .data payload) (UInt32.ofNat payload.length) := by
  have hn := toNat_length hlen
  exact ⟨rfl, hn.symm, hn.symm ▸ List.length_pos_iff.2 hp, hn.symm ▸ hlen⟩

theorem perform_segment_ok {payload : List UInt8} (h : c.segment kind payload = (d, .ok s)) :
    c.perform (.segment kind payload) = (d, none) := by
  simp only [perform, h]

theorem perform_segment_error {payload : List UInt8} {e : Connection.Error}
    (h : c.segment kind payload = (d, .error e)) :
    c.perform (.segment kind payload) = (d, some e) := by
  simp only [perform, h]

theorem perform_accept_ok (h : c.accept kind s = (d, .ok ())) :
    c.perform (.accept kind s) = (d, none) := by
  simp only [perform, h]

theorem perform_accept_error {e : Connection.Error} (h : c.accept kind s = (d, .error e)) :
    c.perform (.accept kind s) = (d, some e) := by
  simp only [perform, h]

/-- What fails sends nothing. -/
theorem dataSent_of_error {e : Connection.Error} (h : c.perform op = (d, some e)) :
    c.dataSent op = none := by
  cases op with
  | segment kind payload =>
    by_cases hk : kind = .data
    · subst hk
      rcases hs : c.segment .data payload with ⟨d', r⟩
      cases r with
      | ok a => simp [perform, hs] at h
      | error e => simp [dataSent, hs, Except.toOption]
    · exact dataSent_control hk payload
  | _ => rfl

theorem account_of_error {e : Connection.Error} (h : c.perform op = (d, some e))
    (hd : Account c d (some e) none []) :
    Account c (c.perform op).1 (c.perform op).2 (c.dataSent op) (c.posted op) := by
  have hposted : c.posted op = [] := by
    rw [posted, h]
    rfl
  rw [hposted, dataSent_of_error h, h]
  exact hd

theorem posted_of_done (h : c.perform op = (d, none)) : c.posted op = (c.due op).toList := by
  rw [posted, h]
  rfl

theorem account_of_idle (h : c.perform op = (d, none)) (hsent : c.dataSent op = none)
    (hdue : c.due op = none) (hw : d.window = c.window) (hf : d.inFlight = c.inFlight) :
    Account c (c.perform op).1 (c.perform op).2 (c.dataSent op) (c.posted op) := by
  rw [posted_of_done h, hdue, hsent, h]
  exact .idle hw hf

/-- **What an acknowledgment does to the account.** -/
theorem Solvent.accept_account (h : c.Solvent) (kind : Kind) (s : Segment) :
    Account c (c.perform (.accept kind s)).1 (c.perform (.accept kind s)).2 none
      (c.posted (.accept kind s)) := by
  have hadv : ((c.noteReceived s).advance kind s).Solvent := h.advance s
  have hw : ((c.noteReceived s).advance kind s).window = c.window := advance_window s
  have hf : ((c.noteReceived s).advance kind s).inFlight = c.inFlight := advance_inFlight s
  obtain ⟨e, hs, -⟩ | ⟨-, -, -, ha, hs⟩ | ⟨-, -, -, ha, hs⟩ := accept_cases c kind s
  · exact account_of_error (perform_accept_error hs) (.idle rfl rfl)
  · exact account_of_idle (perform_accept_ok hs) rfl (by simp [due, ha]) hw hf
  obtain ⟨hnone, hok⟩ | ⟨len, hsome, ⟨l, -, herr⟩ | ⟨-, hok⟩⟩ := hadv.acknowledge_cases
  · -- a mere control acknowledgment
    rw [hf] at hnone
    exact account_of_idle (perform_accept_ok (hs.trans hok)) rfl (by simp [due, hnone]) hw hf
  · -- what is in flight is lost with the record of its acknowledgment
    exact account_of_error (perform_accept_error (hs.trans herr)) (.loses hw rfl)
  · have hp := perform_accept_ok (hs.trans hok)
    rw [hf] at hsome
    have hdue : c.due (.accept kind s) = some (c.entry .recv len) := by simp [due, ha, hsome]
    obtain ⟨lost, hcons⟩ := h.conserved_of_some hsome
    rw [posted_of_done hp, hdue, hp]
    refine .credits hsome rfl ?_
    rw [hcons.acknowledge_part.1]
    show _ = Except.ok (((c.noteReceived s).advance kind s).window.grown len)
    rw [hw]

/-- **What an operation does to the account.** -/
theorem Solvent.perform_account (h : c.Solvent) (op : Op) :
    Account c (c.perform op).1 (c.perform op).2 (c.dataSent op) (c.posted op) := by
  cases op with
  | apply t =>
    rcases hp : c.apply t with e | ⟨r, d⟩
    · exact account_of_error (d := c) (e := e) (by simp only [Connection.perform, hp])
        (.idle rfl rfl)
    · obtain ⟨next, rfl⟩ : ∃ state, d = { c with state } := by
        unfold apply at hp
        split at hp
        · cases hp
        · split at hp <;> cases hp
          exact ⟨_, rfl⟩
      exact account_of_idle (d := { c with state := next }) (by simp only [Connection.perform, hp])
        rfl rfl rfl rfl
  | segment kind payload =>
    obtain ⟨e, hs, -⟩ | ⟨-, e, -, hs⟩ | ⟨hk, -, -, hs⟩ | ⟨rfl, -, hf, hne, hlen, -, hs⟩ :=
      segment_cases c kind payload
    · exact account_of_error (perform_segment_error hs) (.idle rfl rfl)
    · exact account_of_error (perform_segment_error hs) (.idle rfl rfl)
    · exact account_of_idle (perform_segment_ok hs) (dataSent_control hk payload)
        (due_control hk payload) rfl rfl
    · have hp := perform_segment_ok hs
      have hsent : c.dataSent (.segment .data payload) = some (c.compose .data payload) := by
        simp [dataSent, hs, Except.toOption]
      rw [posted_of_done hp, hsent, hp]
      exact .spends hf rfl rfl (carries_compose hne hlen)
  | accept kind s => exact h.accept_account kind s
  | record s =>
    obtain ⟨e, hp, -⟩ | hp := c.perform_record_cases s
    · exact account_of_error hp (.idle rfl rfl)
    · exact account_of_idle hp rfl rfl rfl rfl
  | finish =>
    refine account_of_idle (d := c.finish) rfl rfl rfl ?_ ?_ <;> unfold finish <;> split <;> rfl

/-- **What is done keeps the turns**: data is sent when none is in flight, and what is acknowledged
is what is in flight. -/
theorem alternates_perform (h : Log.Alternates records c.inFlight) (hb : c.Balanced)
    (hp : c.perform op = (d, none)) :
    Log.Alternates (records ++ (c.due op).toList) d.inFlight := by
  have hop := hb.solvent.perform_account op
  rw [posted_of_done hp, hp] at hop
  generalize c.dataSent op = sent, (c.due op).toList = rs at hop ⊢
  cases hop with
  | idle hw hf =>
    rw [hf, List.append_nil]
    exact h
  | spends hc hd =>
    rw [hc] at h
    rw [hd]
    exact .send (r := c.entry .send _) h rfl
  | credits hc hd =>
    rw [hc] at h
    rw [hd]
    exact .recv (r := c.entry .recv _) h rfl

/-- **An operation that fails leaves everything as it was**, while the transfer log takes every
record. -/
theorem perform_of_error (hb : c.Balanced) (hcalm : c.log.Calm) {e : Connection.Error}
    (hp : c.perform op = (d, some e)) : d = c := by
  cases op with
  | apply t =>
    simp only [perform] at hp
    split at hp <;> cases hp
    rfl
  | segment kind payload =>
    simp only [perform] at hp
    obtain ⟨e, hs, -⟩ | ⟨-, e, he, hs⟩ | ⟨-, -, -, hs⟩ | ⟨-, -, -, -, -, -, hs⟩ :=
      segment_cases c kind payload <;> rw [hs] at hp <;> cases hp
    · rfl
    · rw [(calm_logData hcalm .send (UInt32.ofNat payload.length)).1] at he
      cases he
  | accept kind s =>
    simp only [perform] at hp
    obtain ⟨e, hs, -⟩ | ⟨-, -, -, -, hs⟩ | ⟨hd, hk, hfits, -, hs⟩ := accept_cases c kind s
    · rw [hs] at hp
      cases hp
      rfl
    · rw [hs] at hp
      cases hp
    · obtain ⟨d', hd'⟩ := accept_of_calm hcalm hb hd hk hfits
      rw [hd'] at hp
      cases hp
  | record s =>
    simp only [perform] at hp
    split at hp <;> cases hp
    rfl
  | finish => cases hp

/-- **A connection with its journal**: the log holds these records and no others, takes every
record, and is at a send or at the acknowledgment of what is in flight. -/
structure Journaled (c : Connection) (records : List Log.Record) : Prop where
  audited : c.Audited records
  calm : c.log.Calm
  alternates : Log.Alternates records c.inFlight

theorem Journaled.perform (h : c.Journaled records) (op : Op) :
    (c.perform op).1.Journaled (records ++ c.posted op) := by
  have haudited := h.audited.perform op
  have hcalm := calm_perform h.calm op
  rcases hp : c.perform op with ⟨d, e⟩
  rw [hp] at haudited hcalm
  cases e with
  | none =>
    have hposted : c.posted op = (c.due op).toList := by
      rw [posted, hp]
      rfl
    rw [hposted]
    exact ⟨haudited, hcalm, alternates_perform h.alternates h.audited.balanced hp⟩
  | some e =>
    have hposted : c.posted op = [] := by
      rw [posted, hp]
      rfl
    rw [hposted, List.append_nil]
    obtain rfl : d = c := perform_of_error h.audited.balanced h.calm hp
    exact h

theorem Journaled.performAll (h : c.Journaled records) (ops : List Op) :
    (c.performAll ops).Journaled (records ++ c.journal ops) := by
  induction ops generalizing c records with
  | nil => exact (List.append_nil records).symm ▸ h
  | cons op ops ih =>
    have hrest := ih (h.perform op)
    rw [List.append_assoc] at hrest
    exact hrest

theorem journaled_opened (settings : Settings) (role : Role) :
    (opened settings role (some {})).Journaled [] :=
  ⟨audited_opened settings role [], ⟨rfl, rfl, rfl⟩, .nil⟩

/-- The text of the log is that of the journal. -/
theorem Journaled.contents (h : c.Journaled records) : c.log.contents = Log.text records := by
  have hkept := h.audited.kept
  cases hl : c.log with
  | absent =>
    rw [hl] at hkept
    exact hkept.elim
  | writing w =>
    rw [hl] at hkept
    exact hkept.sink
  | released sink =>
    rw [hl] at hkept
    exact hkept.1

/-- The length on the line of a data segment is that of its payload. -/
theorem toNat_length_of_perform {payload : List UInt8}
    (h : (c.perform (.segment .data payload)).2 = none) :
    (UInt32.ofNat payload.length).toNat = payload.length := by
  simp only [perform] at h
  obtain ⟨e, hs, -⟩ | ⟨-, e, -, hs⟩ | ⟨hk, -⟩ | ⟨-, -, -, -, hlen, -, -⟩ :=
    segment_cases c .data payload
  · rw [hs] at h
    cases h
  · rw [hs] at h
    cases h
  · exact absurd rfl hk
  · exact toNat_length hlen

/-- **The transfer log is faithful.** Whatever is done with a connection whose log goes to a sink
that refuses nothing, in any order and state, the text of the log is at every moment that of the
journal, and reads back as it. Its records alternate between sends and acknowledgments of the same
length; the last send stands alone while it is in flight. What fails leaves no line, nor does what
is done once the connection has ended, nor what is not about a data segment. The records pass the
audit, which knows nothing of the congestion window. -/
theorem log_faithful (settings : Settings) (role : Role) (ops : List Op) :
    let c₀ := opened settings role (some {})
    let c := c₀.performAll ops
    (c.log.contents = Log.text (c₀.journal ops) ∧ Log.read c.log.contents = .ok (c₀.journal ops)) ∧
    Log.Alternates (c₀.journal ops) c.inFlight ∧
    (∀ payload, (c.perform (.segment .data payload)).2 = none →
      (UInt32.ofNat payload.length).toNat = payload.length) ∧
    (∀ op, (c.perform op).2 ≠ none ∨ c.done = true ∨ c.due op = none →
      (c.perform op).1.log.contents = c.log.contents) ∧
    Log.audit (c₀.journal ops) = [] := by
  intro c₀ c
  have h : c.Journaled (c₀.journal ops) := (journaled_opened settings role).performAll ops
  have hcontents : c.log.contents = Log.text (c₀.journal ops) := h.contents
  refine ⟨⟨hcontents, ?_⟩, h.alternates, fun payload => toNat_length_of_perform, ?_,
    h.audited.audit⟩
  · rw [hcontents]
    exact Log.read_text _
  · intro op hop
    have hposted : c.posted op = [] := by
      rw [posted]
      split
      · rename_i hdone
        have hnone : (c.perform op).2 = none := Option.isNone_iff_eq_none.1 hdone
        rcases hop with hfail | hend | hdue
        · exact absurd hnone hfail
        · rw [due_of_done hend op hnone]
          rfl
        · rw [hdue]
          rfl
      · rfl
    have hnext := h.perform op
    rw [hposted, List.append_nil] at hnext
    exact hnext.contents.trans hcontents.symm

/-- A data segment, one too many, its acknowledgment, and another data segment. -/
def secondRefused : List Op :=
  [.apply (.start .active), .segment .syn [], .segment .data [1, 2, 3], .segment .data [4],
   .accept .ack ⟨⟨0, 0, 7, 4, 5, Kind.ack.control, 100, 0, 0⟩, []⟩, .segment .data [5, 6]]

/-- While data is in flight more of it is refused, and leaves no line. -/
theorem log_faithful_secondRefused :
    let c₀ := opened {} .active (some {})
    let c := c₀.performAll secondRefused
    c₀.journal secondRefused =
      [⟨.send, 536, 536, 3⟩, ⟨.recv, 536, 533, 3⟩, ⟨.send, 1072, 1072, 2⟩] ∧
    (c.perform (.segment .data [7])).2 ≠ none ∧
    (c.perform (.segment .data [7])).1.log.contents = c.log.contents := by
  have hfail : (((opened {} .active (some {})).performAll secondRefused).perform
      (.segment .data [7])).2 ≠ none := by
    decide +kernel
  exact ⟨by decide +kernel, hfail,
    (log_faithful {} .active secondRefused).2.2.2.1 (.segment .data [7]) (.inl hfail)⟩

end StopWait.Connection
