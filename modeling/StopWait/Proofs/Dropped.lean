import StopWait.Proofs.Cues

/-!
# Segments that leave no trace

A segment with neither FIN nor payload that comes while nothing is awaited is dropped: it is noted
nowhere, not in the numbers of the segment received last and not in the window. So a session whose
stack brings any number of them, whenever it waits for anything, does the same as without them.

* `isDropped`: the datagrams that are dropped.
* `Padded`: a script with such datagrams put in.
* `Interposed`: the calls that they make more.
* `play_dropped`: **a session reads such a datagram and is where it was.**
* `dropped_invisible`: **what is dropped makes no difference** to the rest of a run.
-/

namespace StopWait.Session

/-- Whether a datagram is dropped where nothing is awaited: it is a segment with neither FIN nor
payload. Its numbers and its other control bits do not matter. -/
def isDropped (bytes : List UInt8) : Bool :=
  match Segment.parse (bytes.take receiveCapacity) with
  | .ok s => !s.header.control.fin && s.payload.isEmpty
  | .error _ => false

/-- **A script with `n` datagrams put in that are dropped**, each where the session that plays it
waits for anything. -/
inductive Padded : Session → Nat → List Cue → List Cue → Prop where
  | nil (t : Session) : Padded t 0 [] []
  | cons {t : Session} {n : Nat} (k : Cue) {ks ks' : List Cue}
    (h : Padded ((t.heed k).elim t Prod.snd) n ks ks') : Padded t n (k :: ks) (k :: ks')
  | insert {t : Session} {n : Nat} {ks ks' : List Cue} (bytes : List UInt8)
    (hcall : t.call? = some (.wait .any)) (hdrop : isDropped bytes = true)
    (h : Padded t n ks ks') :
    Padded t (n + 1) ks (.answer (.event .networkData) :: .answer (.bytes bytes) :: ks')

/-- **Calls with `n` receives put in**, each between a wait for anything and another one. -/
inductive Interposed : Nat → List Call → List Call → Prop where
  | nil : Interposed 0 [] []
  | snoc {n : Nat} {cs cs' : List Call} (h : Interposed n cs cs') (call : Call) :
    Interposed n (cs ++ [call]) (cs' ++ [call])
  | insert {n : Nat} {cs cs' : List Call} (h : Interposed n cs cs')
    (hlast : cs'.getLast? = some (.wait .any)) :
    Interposed (n + 1) cs (cs' ++ [.networkRecv receiveCapacity] ++ [.wait .any])

/-- **What a session has gone through, with `n` dropped datagrams and without them.** -/
structure Shadows (n : Nat) (past past' : Past) (t : Session) : Prop where
  calls : Interposed n (calls past t) (calls past' t)
  results : results past' t = results past t

variable {t u : Session} {h : Happening} {past past' : Past} {bytes : List UInt8} {ks ks' : List Cue}
  {m n : Nat}

theorem exists_of_isDropped (hd : isDropped bytes = true) :
    ∃ s, Segment.parse (bytes.take receiveCapacity) = .ok s ∧ s.header.control.fin = false ∧
      s.payload.isEmpty = true := by
  unfold isDropped at hd
  split at hd
  · rename_i s hs
    rw [Bool.and_eq_true, Bool.not_eq_true'] at hd
    exact ⟨s, hs, hd⟩
  · cases hd

/-- A session that waits for anything is idle. -/
theorem eq_of_wait_any (hcall : t.call? = some (.wait .any)) : t = ⟨t.connection, .suspended .idle⟩ := by
  obtain ⟨c, status⟩ := t
  cases status with
  | suspended p =>
    cases p with
    | idle => rfl
    | _ => cases hcall
  | ready | returned => cases hcall

/-- What is dropped leaves a session that reads it as it was before. -/
theorem resumeAt_dropped (c : Connection) (hd : isDropped bytes = true) :
    (resumeAt c .reading (.ok bytes)).1 = ⟨c, .suspended .idle⟩ := by
  obtain ⟨s, hs, hf, hp⟩ := exists_of_isDropped hd
  have hread : resumeAt c .reading (.ok bytes) =
      (arrive c s).after [.segment .received c.role s] := by
    show receive c bytes (arrive c) = _
    rw [receive, hs]
  rw [hread, arrive, if_neg (by simp [hf]), if_pos hp]
  rfl

/-- **A session reads a datagram that it drops, and is where it was.** -/
theorem play_dropped (hcall : t.call? = some (.wait .any)) (hd : isDropped bytes = true)
    (past : Past) (ks : List Cue) :
    play past t (.answer (.event .networkData) :: .answer (.bytes bytes) :: ks) =
      play ((⟨t.connection, .suspended .reading⟩,
          .answered (.networkRecv receiveCapacity) (.bytes bytes)) ::
        (t, .answered (.wait .any) (.event .networkData)) :: past) t ks := by
  obtain ⟨c, status⟩ := t
  have hidle : status = .suspended .idle := congrArg Session.status (eq_of_wait_any hcall)
  subst hidle
  have hheard : (⟨c, .suspended .idle⟩ : Session).heed (.answer (.event .networkData)) =
      some (.answered (.wait .any) (.event .networkData), ⟨c, .suspended .reading⟩) := rfl
  have hread : (⟨c, .suspended .reading⟩ : Session).heed (.answer (.bytes bytes)) =
      some (.answered (.networkRecv receiveCapacity) (.bytes bytes), ⟨c, .suspended .idle⟩) := by
    rw [← resumeAt_dropped c hd]
    rfl
  rw [play, hheard]
  show play _ _ (_ :: ks) = _
  rw [play, hread]

theorem shadows_self (t : Session) : Shadows 0 [] [] t := by
  refine ⟨?_, rfl⟩
  show Interposed 0 t.call?.toList t.call?.toList
  cases t.call? with
  | none => exact .nil
  | some call => exact Interposed.nil.snoc call

/-- A step that both take. -/
theorem Shadows.step (hs : Shadows n past past' t) (h : Happening) (u : Session) :
    Shadows n ((t, h) :: past) ((t, h) :: past') u := by
  refine ⟨?_, congrArg (· ++ u.result?.toList) hs.results⟩
  show Interposed n (Session.calls past t ++ u.call?.toList) (Session.calls past' t ++ u.call?.toList)
  cases u.call? with
  | none => simpa using hs.calls
  | some call => exact hs.calls.snoc call

/-- A datagram that only one of them reads, and drops. -/
theorem Shadows.drop (hs : Shadows n past past' t) (hcall : t.call? = some (.wait .any)) :
    Shadows (n + 1) past ((⟨t.connection, .suspended .reading⟩,
        .answered (.networkRecv receiveCapacity) (.bytes bytes)) ::
      (t, .answered (.wait .any) (.event .networkData)) :: past') t := by
  constructor
  · show Interposed (n + 1) _ (Session.calls past' t ++ [_] ++ t.call?.toList)
    rw [hcall]
    exact hs.calls.insert (getLast?_calls hcall)
  · have hresult : t.result? = none := by rw [eq_of_wait_any hcall]; rfl
    show Session.results past' t ++ [] ++ t.result?.toList = _
    rw [hresult, ← hs.results, List.append_nil]
    exact List.append_nil _

/-- **A padded script is played like the script itself.** -/
theorem Padded.play (hk : Padded t m ks ks') (hs : Shadows n past past' t) :
    (play past' t ks').2 = (play past t ks).2 ∧
      Shadows (n + m) (play past t ks).1 (play past' t ks').1 (play past t ks).2 := by
  induction hk generalizing n past past' with
  | nil => exact ⟨rfl, hs⟩
  | @cons t m k ks ks' _ ih =>
    rw [Session.play, Session.play]
    cases hheed : t.heed k with
    | none =>
      rw [hheed] at ih
      exact ih hs
    | some step =>
      rw [hheed] at ih
      exact ih (hs.step step.1 step.2)
  | @insert t m ks ks' bytes hcall hdrop _ ih =>
    rw [play_dropped hcall hdrop, ← Nat.add_assoc, Nat.add_right_comm n m 1]
    exact ih (hs.drop hcall)

/-- **What is dropped makes no difference.** A session plays a script, or the same script with any
number of datagrams put in, wherever it waits for anything, that are segments with neither FIN nor
payload. In the end it is the same session, with the same connection and transfer log, and its runs
have come to the same results. It has made the same calls, down to the bytes, but for one receive and
one more wait for each of these datagrams. -/
theorem dropped_invisible (s : Session) (n : Nat) {script script' : List Cue}
    (h : Padded s n script script') :
    let (past, t) := play [] s script
    let (past', t') := play [] s script'
    t' = t ∧ results past' t' = results past t ∧ Interposed n (calls past t) (calls past' t') := by
  obtain ⟨hend, hs⟩ := h.play (shadows_self s)
  rw [Nat.zero_add] at hs
  refine ⟨hend, ?_, ?_⟩
  · rw [hend]
    exact hs.results
  · rw [hend]
    exact hs.calls

/-- Scripts that go on with an answer to the call that a session waits on. -/
theorem padded_answer {c₀ c : Connection} {x : Stage} {call : Call} {r : Response}
    (hx : x.Fits c₀ c) (hcall : (staged (c, x)).call? = some call) (hr : r.suits call = true)
    (hks : (carry c (x.turn r)).2.Fits c₀ (carry c (x.turn r)).1 →
      Padded (staged (carry c (x.turn r))) n ks ks') :
    Padded (staged (c, x)) n (.answer r :: ks) (.answer r :: ks') := by
  obtain ⟨hheed, hfits⟩ := heeds_answer hx hcall hr
  apply Padded.cons
  rw [hheed]
  exact hks hfits

/-- Scripts that begin with a run. -/
theorem padded_run {c₀ : Connection} (h₀ : c₀.Free .listen)
    (hks : (carry c₀ (opening c₀.role)).2.Fits c₀ (carry c₀ (opening c₀.role)).1 →
      Padded (staged (carry c₀ (opening c₀.role))) n ks ks') :
    Padded (staged (c₀, .ready)) n (.run :: ks) (.run :: ks') := by
  obtain ⟨hheed, hfits⟩ := heeds_run h₀
  apply Padded.cons
  rw [hheed]
  exact hks hfits

/-- An active session opens, reads what comes, and is told to close. -/
def openAndClose (between : List Cue) : List Cue :=
  [.run, .answer (.sent 20), .answer (.event .networkData), .answer (.bytes (blank .synAck [])),
    .answer (.sent 20), .answer .told] ++ between ++ [.answer (.event .appCloseRequested)]

/-- Two datagrams that are dropped, with SYN and ACK and with other numbers. -/
def strays : List (List UInt8) :=
  [[0, 1, 0, 2, 9, 9, 9, 9, 8, 8, 8, 8, 80, 18, 0, 1, 0, 0, 0, 0],
    [0, 3, 0, 4, 7, 7, 7, 7, 6, 6, 6, 6, 80, 0, 0, 0, 0, 0, 0, 0]]

/-- They leave the FIN of the session as it is. -/
theorem dropped_invisible_strays :
    let s := opened {} .active none
    let script := openAndClose []
    let script' := openAndClose (strays.flatMap fun bytes =>
      [.answer (.event .networkData), .answer (.bytes bytes)])
    Padded s 2 script script' ∧ (play [] s script').2 = (play [] s script).2 := by
  intro s script script'
  have hpadded : Padded s 2 script script' := by
    have hs : s = staged (Connection.opened {} .active none, .ready) := opened_eq {} .active none
    rw [hs]
    refine padded_run (Connection.opened_free {} .active none) fun hx => ?_
    refine padded_answer hx rfl rfl fun hx => ?_
    refine padded_answer hx rfl rfl fun hx => ?_
    refine padded_answer hx rfl rfl fun hx => ?_
    refine padded_answer hx rfl rfl fun hx => ?_
    refine padded_answer hx rfl rfl fun hx => ?_
    exact .insert _ rfl rfl (.insert _ rfl rfl (.cons _ (.nil _)))
  exact ⟨hpadded, (dropped_invisible s 2 hpadded).1⟩

end StopWait.Session
