import StopWait.Proofs.Journal

/-!
# What the window covers

A transfer log that refuses the record of an acknowledgment costs a connection the bytes that were
in flight: they are not in flight any more, and the window is not refunded. However often that
happens, the window covers what is in flight.

* `Solvent.perform`: **every operation keeps the window covered**, whatever fails.
* `Reachable`, `Reachable.solvent`: so does everything that can be done with a connection.
-/

namespace StopWait.Connection

variable {c : Connection}

theorem solvent_opened (settings : Settings) (role : Role) (sink : Option Log.Sink) :
    (opened settings role sink).Solvent :=
  (balanced_opened settings role sink).solvent

/-- **Every operation keeps the window covered.** -/
theorem Solvent.perform (h : c.Solvent) (op : Op) : (c.perform op).1.Solvent := by
  have hop := h.perform_account op
  obtain ⟨lost, hlost⟩ := h.window
  generalize (c.perform op).2 = e, c.dataSent op = sent, c.posted op = rs at hop
  cases hop with
  | idle hw hf => exact h.congr hw hf
  | loses hw hd =>
    -- what was in flight is lost as well
    refine ⟨⟨c.inFlight.elim 0 UInt32.toNat + lost, ?_⟩, by rw [hd]; nofun⟩
    rw [hw, hd]
    exact (Nat.zero_add _).symm ▸ hlost
  | spends hc hd hw ha =>
    constructor
    · rw [hw, hd]
      exact hlost.spend_covered ha.range.2
    · intro n hn
      rw [hd] at hn
      cases hn
      exact ha.range
  | credits hc hd hw =>
    rw [hc] at hlost
    obtain ⟨hok, hgrown⟩ := hlost.acknowledge_part
    refine ⟨⟨lost, ?_⟩, by rw [hd]; nofun⟩
    rw [hd, ← Except.ok.inj (hok.symm.trans hw)]
    exact (Nat.zero_add _).symm ▸ hgrown

theorem Solvent.performAll (h : c.Solvent) (ops : List Op) : (c.performAll ops).Solvent := by
  induction ops generalizing c with
  | nil => exact h
  | cons op ops ih => exact ih (h.perform op)

/-- **The connections that there can be**: fresh ones, and what becomes of them by operations in any
order. Any transfer log may be taken up at any time. -/
inductive Reachable : Connection → Prop where
  | new (settings : Settings) (role : Role) : Reachable (.new settings role)
  | logs {c : Connection} (h : Reachable c) (log : TransferLog) : Reachable { c with log }
  | performs {c : Connection} (h : Reachable c) (op : Op) : Reachable (c.perform op).1

/-- **Whatever was done with a connection, its window covers what is in flight.** -/
theorem Reachable.solvent (h : Reachable c) : c.Solvent := by
  induction h with
  | new settings role => exact solvent_opened settings role none
  | logs _ log ih => exact ih.congr rfl rfl
  | performs _ op ih => exact ih.perform op

theorem Reachable.performAll (h : Reachable c) (ops : List Op) : Reachable (c.performAll ops) := by
  induction ops generalizing c with
  | nil => exact h
  | cons op ops ih => exact ih (h.performs op)

theorem reachable_opened (settings : Settings) (role : Role) (sink : Option Log.Sink) :
    Reachable (opened settings role sink) := by
  cases sink with
  | none => exact .new settings role
  | some sink => exact (Reachable.new settings role).logs _

end StopWait.Connection
