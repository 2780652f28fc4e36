import StopWait.Proofs.Moves

/-!
# The books of an end

What an application has written is either read by its session or still with the endpoint, as long as
there is a stack. The same goes for what it wrote before it closed.

* `Books`: **what is written is what is read and what is unread.**
* `Books.heeds`, `Books.exchange`: applications and sessions keep the books.
-/

namespace StopWait.Link

open Session (Response)

/-- **The books of an end**: what its application `wrote`, the part of it before a close, and what
its session has `read`. -/
structure Books (e : Endpoint) (wrote read : List UInt8) (closing : Option (List UInt8)) : Prop where
  sub : read <+: wrote
  total : e.stackGone = false → wrote = read ++ e.unread
  pledge : e.stackGone = false → closing = e.pledged.map (read ++ ·)

variable {e e' f f' : Endpoint} {wrote read : List UInt8} {closing : Option (List UInt8)}
  {losable : Prop} {call : Call} {r : Response} {side : Side}

/-- What a change of an endpoint leaves of the application's bytes. -/
theorem Books.congr (h : Books e wrote read closing) (hu : e'.unread = e.unread)
    (hp : e'.pledged = e.pledged) (hs : e'.stackGone = e.stackGone) :
    Books e' wrote read closing := by
  refine ⟨h.sub, fun hg => ?_, fun hg => ?_⟩
  · rw [hu]
    exact h.total (hs ▸ hg)
  · rw [hp]
    exact h.pledge (hs ▸ hg)

/-- An answered call takes what it reads from the application's bytes, and nothing from the
peer's. -/
theorem Exchange.spends (h : Exchange losable e f call r e' f') :
    e.unread = readBytes call r ++ e'.unread ∧
      e.pledged = e'.pledged.map (readBytes call r ++ ·) ∧ e'.stackGone = e.stackGone := by
  have hnil : ∀ {g : Endpoint}, g.unread = e.unread → g.pledged = e.pledged →
      g.stackGone = e.stackGone →
      e.unread = [] ++ g.unread ∧ e.pledged = g.pledged.map ([] ++ ·) ∧
        g.stackGone = e.stackGone := by
    intro g hu hp hs
    refine ⟨hu.symm, ?_, hs⟩
    rw [← hp]
    cases g.pledged <;> rfl
  cases h with
  | event heard | timeout heard | deaf heard => exact hnil heard.unread heard.pledged heard.stack
  | sent | lost | unsendable | empty => exact hnil rfl rfl rfl
  | told | untold => cases call <;> exact hnil rfl rfl rfl
  | received taken kept =>
    exact hnil (congrArg Endpoint.unread kept).symm (congrArg Endpoint.pledged kept).symm
      (congrArg Endpoint.stackGone kept).symm
  | read =>
    rename_i n
    -- the bytes go from the front of the buffer, which is the front of what is unread
    refine ⟨?_, ?_, rfl⟩
    · simp only [readBytes, Endpoint.unread, ← List.append_assoc, List.take_append_drop]
    · simp only [readBytes, Endpoint.pledged, Endpoint.unread]
      split
      · simp
      · split
        · simp [← List.append_assoc]
        · split
          · simp [← List.append_assoc]
          · rfl

/-- The peer's books do not change with an answered call. -/
theorem Exchange.spares (h : Exchange losable e f call r e' f') :
    f'.unread = f.unread ∧ f'.pledged = f.pledged ∧ f'.stackGone = f.stackGone := by
  cases h <;> exact ⟨rfl, rfl, rfl⟩

/-- **An answered call keeps the books.** -/
theorem Books.exchange (h : Books e wrote read closing) (hr : Exchange losable e f call r e' f')
    (hg : e.stackGone = false) : Books e' wrote (read ++ readBytes call r) closing := by
  obtain ⟨hu, hp, -⟩ := hr.spends
  have htotal := h.total hg
  rw [hu, ← List.append_assoc] at htotal
  refine ⟨?_, fun _ => htotal, fun _ => ?_⟩
  · rw [htotal]
    exact List.prefix_append _ _
  · rw [h.pledge hg, hp, Option.map_map]
    congr 1
    funext bytes
    exact (List.append_assoc _ _ _).symm

theorem Books.dropStack (h : Books e wrote read closing) : Books e.dropStack wrote read closing :=
  ⟨h.sub, nofun, nofun⟩

theorem writtenUptoClose_append (xs ys : List Deed) :
    writtenUptoClose side (xs ++ ys) =
      (writtenUptoClose side xs).or
        ((writtenUptoClose side ys).map (xs.flatMap (Deed.written side) ++ ·)) := by
  induction xs with
  | nil => simp [writtenUptoClose]
  | cons d ds ih =>
    rw [List.cons_append, writtenUptoClose, writtenUptoClose, ih]
    split
    · rfl
    · cases writtenUptoClose side ds <;> cases writtenUptoClose side ys <;> simp

theorem uptoClose_append (xs ys : List Request) :
    uptoClose (xs ++ ys) =
      (uptoClose xs).or ((uptoClose ys).map (xs.flatMap Request.bytes ++ ·)) := by
  induction xs with
  | nil => simp [uptoClose]
  | cons r rs ih =>
    cases r with
    | close => rfl
    | write bytes =>
      rw [List.cons_append, uptoClose, uptoClose, ih]
      cases uptoClose rs <;> cases uptoClose ys <;> simp [Request.bytes]

theorem pledged_write (bytes : List UInt8) (happ : e.appGone = false) :
    Endpoint.pledged { e with requests := e.requests ++ [.write bytes] } = e.pledged := by
  simp only [Endpoint.pledged, uptoClose_append, uptoClose, Option.map_none, Option.or_none, happ,
    Bool.false_eq_true, if_false]

theorem pledged_close (happ : e.appGone = false) :
    Endpoint.pledged { e with requests := e.requests ++ [.close] } =
      e.pledged.or (some e.unread) := by
  simp only [Endpoint.pledged, uptoClose_append, uptoClose, happ, Bool.false_eq_true, if_false]
  split
  · rfl
  · cases uptoClose e.requests <;> simp [Endpoint.unread]

theorem pledged_dropApp : e.dropApp.pledged = e.pledged.or (some e.unread) := by
  simp only [Endpoint.pledged, Endpoint.dropApp, if_true]
  split
  · rfl
  · cases uptoClose e.requests with
    | some bytes => rfl
    | none => cases e.appGone <;> rfl

/-- A pledge is made once: later ones do not count. -/
theorem Books.pledge_once (h : Books e wrote read closing) (hg : e.stackGone = false) :
    closing.or (some wrote) = (e.pledged.or (some e.unread)).map (read ++ ·) := by
  rw [h.pledge hg, h.total hg]
  cases e.pledged <;> rfl

/-- **A move of an application keeps the books.** -/
theorem Books.heeds {d : Option Deed} (h : Books e wrote read closing)
    (hd : Heeds side e d e') :
    Books e' (wrote ++ d.toList.flatMap (Deed.written side)) read
      (closing.or ((writtenUptoClose side d.toList).map (wrote ++ ·))) := by
  cases hd with
  | refused gone =>
    rename_i r
    -- a refused request is not written
    have hnil : Deed.written side (.app side r.call (.failed .disconnected)) = [] := by
      cases r <;> rfl
    have hopen : Deed.closes side (.app side r.call (.failed .disconnected)) = false := by
      cases r <;> rfl
    simp only [Option.toList_some, List.flatMap_cons, List.flatMap_nil, hnil, List.append_nil,
      writtenUptoClose, hopen, Bool.false_eq_true, if_false, Option.map_none, Option.or_none]
    exact h
  | hears hd =>
    -- a call that listens writes nothing
    have hquiet : d.toList.flatMap (Deed.written side) = [] ∧
        writtenUptoClose side d.toList = none := by
      rcases hd with rfl | ⟨c, reply, rfl, hc⟩
      · exact ⟨rfl, rfl⟩
      · cases c with
        | write | close => cases hc
        | _ => exact ⟨rfl, rfl⟩
    rw [hquiet.1, hquiet.2, List.append_nil, Option.map_none, Option.or_none]
    exact h.congr rfl rfl rfl
  | drops =>
    have hclose : writtenUptoClose side [.drop side] = some [] := by
      simp [writtenUptoClose, Deed.closes]
    simp only [Option.toList_some, hclose, Option.map_some, List.append_nil]
    refine ⟨?_, ?_, ?_⟩
    · simpa [Deed.written] using h.sub
    · intro hg
      have htotal : wrote = read ++ e.dropApp.unread := h.total hg
      simpa [Deed.written] using htotal
    · intro hg
      rw [pledged_dropApp]
      exact h.pledge_once hg
  | asks there app =>
    rename_i r
    cases r with
    | write bytes =>
      have hopen : writtenUptoClose side [.app side (.write bytes) .done] = none := by
        simp [writtenUptoClose, Deed.closes]
      have hbytes : [Deed.app side (.write bytes) .done].flatMap (Deed.written side) = bytes := by
        simp [Deed.written]
      simp only [Option.toList_some, Request.call, hopen, hbytes, Option.map_none, Option.or_none]
      refine ⟨h.sub.trans (List.prefix_append _ _), fun hg => ?_, fun hg => ?_⟩
      · rw [h.total hg]
        simp [Endpoint.unread, Request.bytes]
      · rw [pledged_write bytes app]
        exact h.pledge hg
    | close =>
      have hclose : writtenUptoClose side [.app side .close .done] = some [] := by
        simp [writtenUptoClose, Deed.closes]
      simp only [Option.toList_some, Request.call, hclose, Option.map_some, List.append_nil]
      refine ⟨?_, ?_, ?_⟩
      · simpa [Deed.written] using h.sub
      · intro hg
        simpa [Deed.written, Endpoint.unread, Request.bytes] using h.total hg
      · intro hg
        rw [pledged_close app]
        exact h.pledge_once hg

end StopWait.Link
