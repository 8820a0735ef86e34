import Rounac.Lifecycle

/-!
# Reads on a failed connection

A connection is *down* when its status is `Inoperable` or `Failed`. A read on an empty ring fails
exactly when the ring has lost its sender, and senders are held by ringmasters; the status alone
fails no read. What closes the ringmasters is the shutdown in the MQTT event loop: it reaches every
registered one. The AMQP callbacks only set the status, and a ringmaster that was closed takes new
senders, so reads fail in the runs where no reader is alive at an AMQP close and none is made while
the connection is down (`reads_fail_when_down`).
-/

namespace Rounac

open StepSystem SwapRemove

/-! ## Reads of an empty ring -/

namespace AsbReader

variable {Val : Type} {r : AsbReader} {asb : NetAsb Val}

theorem script_of_cut (hempty : r.unread asb = []) (hcut : r.disconnected asb = true)
    (clock : ℕ → Instant) (idle : List (Recv Val)) :
    r.script asb clock idle = [(.disconnected, clock 0)] := by
  rw [script_of_unread_nil hempty, if_pos hcut]
  rfl

theorem read_of_cut (hpoll : r.callbacksActive = false) (hempty : r.unread asb = [])
    (hcut : r.disconnected asb = true) (clock : ℕ → Instant) :
    (r.read (r.script asb clock [])).1 = .err closedErr := by
  rw [script_of_cut hempty hcut]
  unfold read
  rw [callbackModeError_of_polling hpoll]
  cases r.expiration <;> rfl

theorem tryRead_of_cut (hpoll : r.callbacksActive = false) (hempty : r.unread asb = [])
    (hcut : r.disconnected asb = true) (clock : ℕ → Instant) :
    (r.tryRead (r.script asb clock [.nothing])).1 = .err closedErr := by
  rw [script_of_cut hempty hcut]
  unfold tryRead
  rw [callbackModeError_of_polling hpoll]
  cases r.expiration <;> rfl

/-- `read_timeout` does not look at the ring when it has an expiration and no time. -/
theorem readTimeout_of_cut (hpoll : r.callbacksActive = false) (hempty : r.unread asb = [])
    (hcut : r.disconnected asb = true) (timeout : Duration) (start : Instant)
    (clock : ℕ → Instant) :
    (r.readTimeout timeout start (r.script asb clock [.nothing])).1 = .err closedErr ↔
      timeout ≠ 0 ∨ r.expiration = none := by
  rw [script_of_cut hempty hcut]
  unfold readTimeout
  rw [callbackModeError_of_polling hpoll]
  cases hexp : r.expiration with
  | none => simp
  | some expiration =>
    by_cases h0 : timeout = 0
    · simp [readTimeoutLoop, h0]
    · simp [readTimeoutLoop, h0]

end AsbReader

/-! ## Closed ringmasters -/

namespace Roster

/-- Every live reader's ringmaster has lost its senders. -/
def Cut (s : Roster) : Prop := ∀ r ∈ s.live, s.senders r.ringmaster = []

theorem dropNet_senders {s : Roster} {m : MasterId} (h : s.senders m = []) (net : AsbReaderNet) :
    (s.dropNet net).senders m = [] := by
  unfold dropNet
  split
  · exact h
  · split_ifs
    · rename_i topic e _ _
      by_cases hm : m = e.ringmaster
      · subst hm
        exact Function.update_self _ _ _
      · exact (Function.update_of_ne hm _ _).trans h
    · exact h

theorem discharge_senders {s : Roster} {m : MasterId} (h : s.senders m = []) (i : ℕ)
    (r : AsbReader) : (s.discharge i r).senders m = [] := by
  have hsilence : (s.silence r).senders m = [] := by
    by_cases hm : m = r.ringmaster
    · subst hm
      refine (Function.update_self _ _ _).trans ?_
      rw [h]
      rfl
    · exact (Function.update_of_ne hm _ _).trans h
  unfold discharge
  dsimp only
  split_ifs
  · exact hsilence
  · refine dropNet_senders ?_ _
    exact hsilence

theorem Cut.move {s s' : Roster} {d : Option ℕ} (h : s.Cut) (hmove : s.Move d s')
    (hlen : s'.live.length ≤ s.live.length) : s'.Cut := by
  cases hmove with
  | idle => exact h
  | join | opened | cloned =>
    -- The roster would have grown.
    have hmore : s.live.length + 1 ≤ s.live.length := by
      simpa only [register, subscribe, enlist, List.length_append, List.length_singleton] using hlen
    omega
  | @dropped i r hi =>
    intro o ho
    rw [discharge_live] at ho
    exact discharge_senders (h o (List.mem_of_mem_eraseIdx ho)) i r

end Roster

namespace AsbConnection

variable {Val : Type} {qx : QuickXml Val} {config : AsbConfig} {svcName : String}

/-- The connection is inoperable or failed. -/
def Down (c : AsbConnection Val) : Prop := c.status = .inoperable ∨ c.status = .failed

/-- No reader is alive when the server closes the AMQP connection or channel. -/
def ClosesIdle (c : AsbConnection Val) (op : Op Val) : Prop :=
  op.isFailure = true → op.isPollError = false → c.readers = []

variable (qx config svcName) in
/-- No reader is made while the connection is down. -/
def MakesNoneDown (c : AsbConnection Val) (op : Op Val) : Prop :=
  c.Down → ∀ c', c.step qx config svcName op = some c' → c'.readers.length ≤ c.readers.length

/-- The calls on a polling reader with an empty ring return an error; `read_timeout` on a reader
with an expiration needs time to do so, and any reader needs the clock to have that time. -/
def ReadsFail (latest : Instant) (c : AsbConnection Val) (r : AsbReader) : Prop :=
  r.callbacksActive = false → r.unread c.asb = [] →
    (∀ clock, (r.read (r.script c.asb clock [])).1 = .err AsbReader.closedErr) ∧
    (∀ clock, (r.tryRead (r.script c.asb clock [.nothing])).1 = .err AsbReader.closedErr) ∧
    ∀ timeout start clock, start + timeout ≤ latest →
      ((r.readTimeout timeout start (r.script c.asb clock [.nothing])).1 =
          .err AsbReader.closedErr ↔ timeout ≠ 0 ∨ r.expiration = none)

theorem readsFail_of_cut {c : AsbConnection Val} (h : c.roster.Cut) (latest : Instant)
    {r : AsbReader} (hr : r ∈ c.readers) : c.ReadsFail latest r := by
  intro hpoll hempty
  have hcut : r.disconnected c.asb = true := by
    refine (AsbReader.disconnected_iff r c.asb).2 fun s hs => ?_
    have hnil : (c.asb.masters r.ringmaster).senders = [] := h r hr
    rw [hnil] at hs
    cases hs
  exact ⟨AsbReader.read_of_cut hpoll hempty hcut, AsbReader.tryRead_of_cut hpoll hempty hcut,
    fun timeout start clock _ =>
      AsbReader.readTimeout_of_cut hpoll hempty hcut timeout start clock⟩

/-- Up, the registry is exact; down, every live reader is cut. -/
def UpOrCut (c : AsbConnection Val) : Prop :=
  c.Brokered ∧ ((¬ c.Down ∧ c.Sound ∧ c.roster.Exact) ∨ (c.Down ∧ c.roster.Cut))

theorem cut_pollError {c : AsbConnection Val} (h : c.Sound) (hex : c.roster.Exact) :
    c.pollError.roster.Cut := by
  intro r hr
  obtain ⟨topic, hon⟩ := h.grounded.topical r hr
  obtain ⟨e, he, hm⟩ := hex.entry_of_mem hr hon.topic_eq
  show (c.asb.shutdown.masters r.ringmaster).senders = []
  rw [hm]
  exact NetAsb.senders_shutdown he

theorem Cut.pollError {c : AsbConnection Val} (h : c.roster.Cut) : c.pollError.roster.Cut := by
  intro r hr
  have hnil : (c.asb.masters r.ringmaster).senders = [] := h r hr
  refine List.subset_nil.1 ?_
  rw [← hnil]
  exact NetAsb.senders_shutdown_subset c.asb r.ringmaster

theorem UpOrCut.step {c c' : AsbConnection Val} {op : Op Val} (h : c.UpOrCut) (hfew : c.Few)
    (hclose : c.ClosesIdle op) (hnew : c.MakesNoneDown qx config svcName op)
    (hs : c.step qx config svcName op = some c') : c'.UpOrCut := by
  obtain ⟨hc, h⟩ := h
  have hframe := step_frame hs
  refine ⟨by rw [Brokered, hframe.1]; exact hc, ?_⟩
  by_cases hpoll : op.isPollError = true
  · -- The event loop shuts the ASB down before it sets the status.
    cases op <;> simp only [Op.isPollError, reduceCtorEq] at hpoll
    simp only [AsbConnection.step, exec] at hs
    split_ifs at hs
    · cases hs
      refine .inr ⟨.inr (setStatus_eq _ _), ?_⟩
      rcases h with ⟨-, hsound, hex⟩ | ⟨-, hcut⟩
      · exact cut_pollError hsound hex
      · exact Cut.pollError hcut
    · cases hs
  · have hpoll : op.isPollError = false := by simpa using hpoll
    have hmove := step_rosterMove hc hpoll hs
    rcases h with ⟨hup, hsound, hex⟩ | ⟨hdown, hcut⟩
    · by_cases hfail : op.isFailure = true
      · -- An AMQP close finds no reader.
        have hnone := hclose hfail hpoll
        cases op <;> simp only [Op.isFailure, Op.isPollError, reduceCtorEq] at hfail hpoll <;>
          simp only [AsbConnection.step, exec] at hs <;> split_ifs at hs
        · cases hs
          refine .inr ⟨.inr (setStatus_eq _ _), fun r hr => ?_⟩
          exact absurd (show r ∈ c.readers from hr) (by simp [hnone])
        · cases hs
        · cases hs
          refine .inr ⟨.inl (setStatus_eq _ _), fun r hr => ?_⟩
          exact absurd (show r ∈ c.readers from hr) (by simp [hnone])
        · cases hs
      · have hstatus := hframe.2 (by simpa using hfail)
        refine .inl ⟨?_, hsound.step hpoll hs, exact_step hsound hex hfew hpoll hs⟩
        rw [Down, hstatus]
        exact hup
    · -- Down already: no reader is made any more, and those there are stay cut off.
      refine .inr ⟨?_, hcut.move hmove (hnew hdown c' hs)⟩
      by_cases hfail : op.isFailure = true
      · cases op <;> simp only [Op.isFailure, Op.isPollError, reduceCtorEq] at hfail hpoll <;>
          simp only [AsbConnection.step, exec] at hs <;> split_ifs at hs
        · cases hs; exact .inr (setStatus_eq _ _)
        · cases hs
        · cases hs; exact .inl (setStatus_eq _ _)
        · cases hs
      · rw [Down, hframe.2 (by simpa using hfail)]
        exact hdown

/-- **Reads fail on a connection that is down**, over every run in which no reader is alive when the
server closes an AMQP connection or channel, none is made while the connection is down, and the
registry can count the readers. -/
theorem reads_fail_when_down (latest : Instant) (kind : NetworkKind)
    (hkind : kind = .amqp ∨ kind = .mqtt) (exchange : Option String) (is : List (Op Val))
    (hclose : EachStep (step qx config svcName) ClosesIdle (connected kind exchange) is)
    (hnew : EachStep (step qx config svcName) (MakesNoneDown qx config svcName)
      (connected kind exchange) is)
    (hfew : Always (step qx config svcName) Few (connected kind exchange) is) :
    Always (step qx config svcName) (fun c => c.Down → ∀ r ∈ c.readers, c.ReadsFail latest r)
      (connected kind exchange) is := by
  have hstart : (connected kind exchange : AsbConnection Val).UpOrCut :=
    ⟨hkind, .inl ⟨by simp [Down, connected], sound_connected hkind exchange,
      exact_connected kind exchange⟩⟩
  have hinv : Always (step qx config svcName) UpOrCut (connected kind exchange) is :=
    Always.of_inv_bounded (fun c op c' h hfew hop hs _ => h.step hfew hop.1 hop.2 hs) hstart hfew
      (hclose.and hnew)
  refine hinv.mono fun c h hdown r hr => ?_
  rcases h.2 with ⟨hup, -, -⟩ | ⟨-, hcut⟩
  · exact absurd hdown hup
  · exact readsFail_of_cut hcut latest hr

/-- A reader and its clone on a connection whose event loop fails. -/
theorem reads_fail_after_poll_error :
    Always (step .unit (.withBusTopics "svc" []) "svc")
      (fun c => c.Down → ∀ r ∈ c.readers, c.ReadsFail 10 r) (connected .mqtt none)
      [.createReader ⟨0⟩ "t" .accepting 1, .cloneReader 0 2, .pollError, .dropReader 0] := by
  refine reads_fail_when_down 10 .mqtt (.inr rfl) none _ ?_ ?_ (by decide)
  · refine (eachStep_cons_iff rfl).2 ⟨by simp [ClosesIdle, Op.isFailure], ?_⟩
    refine (eachStep_cons_iff rfl).2 ⟨by simp [ClosesIdle, Op.isFailure], ?_⟩
    refine (eachStep_cons_iff rfl).2 ⟨by simp [ClosesIdle, Op.isPollError], ?_⟩
    exact (eachStep_cons_iff rfl).2 ⟨by simp [ClosesIdle, Op.isFailure], trivial⟩
  · have hup : ∀ {c : AsbConnection Unit} {op}, c.status = .normal →
        c.MakesNoneDown .unit (.withBusTopics "svc" []) "svc" op := by
      intro c op hnormal hdown
      simp [Down, hnormal] at hdown
    refine (eachStep_cons_iff rfl).2 ⟨hup rfl, (eachStep_cons_iff rfl).2 ⟨hup rfl, ?_⟩⟩
    refine (eachStep_cons_iff rfl).2 ⟨hup rfl, (eachStep_cons_iff rfl).2 ⟨?_, trivial⟩⟩
    rintro - c' ⟨⟩
    exact Nat.le_succ 1

/-- On a live reader with an empty ring: after the server closes the AMQP connection or channel,
`try_read` reports nothing and `read` waits; after an MQTT poll error, `try_read` on a new clone
reports nothing. -/
theorem reads_on_a_failed_connection_do_not_fail :
    (∃ c : AsbConnection Unit,
      run (step .unit (.withBusTopics "svc" []) "svc") (connected .amqp none)
        [.createReader ⟨0⟩ "t" .accepting 1, .connClose] = some c ∧ c.status = .failed ∧
      (c.exec .unit (.withBusTopics "svc" []) "svc" (.tryRead 0 fun _ => 0)).map Prod.fst =
        some (.ok (.read .nothing)) ∧
      (c.exec .unit (.withBusTopics "svc" []) "svc" (.read 0 fun _ => 0)).map Prod.fst =
        some (.ok (.read .waiting))) ∧
    (∃ c : AsbConnection Unit,
      run (step .unit (.withBusTopics "svc" []) "svc") (connected .amqp none)
        [.createReader ⟨0⟩ "t" .accepting 1, .chanClose] = some c ∧ c.status = .inoperable ∧
      (c.exec .unit (.withBusTopics "svc" []) "svc" (.tryRead 0 fun _ => 0)).map Prod.fst =
        some (.ok (.read .nothing))) ∧
    ∃ c : AsbConnection Unit,
      run (step .unit (.withBusTopics "svc" []) "svc") (connected .mqtt none)
        [.createReader ⟨0⟩ "t" .accepting 1, .pollError, .cloneReader 0 2] = some c ∧
      c.status = .failed ∧
      (c.exec .unit (.withBusTopics "svc" []) "svc" (.tryRead 1 fun _ => 0)).map Prod.fst =
        some (.ok (.read .nothing)) :=
  ⟨⟨_, rfl, rfl, rfl, rfl⟩, ⟨_, rfl, rfl, rfl⟩, ⟨_, rfl, rfl, rfl⟩⟩

end AsbConnection

end Rounac
