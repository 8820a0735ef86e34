import Rounac.ModeSwitch

/-!
# Polling while listeners are active

A polling call looks at the flag once, when it begins, and `add_listener` sets the flag without
looking for polling calls. A call that the flag catches goes on taking messages. No call does so in
the runs in which the flag is set while no client is in a polling call (`polling_excluded`), and a
call that is caught takes the next message (`not_pollsNothing_of_caught`).
-/

namespace Rounac

open OverwriteRing SwapRemove StepSystem TaskPool

def Client.isPolling : Client → Bool
  | polling _ => true
  | _ => false

namespace SharedReader

/-- No client's call takes a message while listeners are active. -/
def PollsNothing (s : SharedReader) : ReaderStep → Prop
  | .client j now => s.callbacksActive = true →
      ∀ s', s.step (.client j now) = some s' → s'.ring = s.ring
  | _ => True

/-- The flag is set while no client is in a polling call. -/
def SetsFlagAlone (s : SharedReader) : ReaderStep → Prop
  | .client j _ => s.clients[j]? = some .starting → ∀ c ∈ s.clients, c.isPolling = false
  | _ => True

instance (s : SharedReader) : ∀ l, Decidable (s.SetsFlagAlone l)
  | .client j _ => inferInstanceAs (Decidable (s.clients[j]? = some .starting → _))
  | .arrive _ | .disconnect | .call _ _ _ | .thread _ _ => inferInstanceAs (Decidable True)

/-- While listeners are active, no client is in a polling call. -/
def Excluded (s : SharedReader) : Prop :=
  s.callbacksActive = true → ∀ c ∈ s.clients, c.isPolling = false

/-! ## What the steps do to the flag -/

theorem callbacksActive_of_removeListener {s : SharedReader} {id : BitVec 32}
    (h : (s.removeListener id).2.callbacksActive = true) : s.callbacksActive = true := by
  unfold removeListener at h
  dsimp only at h
  split_ifs at h
  · cases h
  · exact h

theorem isPolling_poll {s : SharedReader} (h : s.callbacksActive = true) (call : PollCall) :
    (s.poll call).1.isPolling = false := by
  simp [poll, inCallbackMode, h, Client.isPolling]

theorem ring_advanceClient {s : SharedReader} {now : Instant} {c : Client}
    {next : Client × SharedReader} (hc : c.isPolling = false)
    (h : s.advanceClient now c = some next) : next.2.ring = s.ring := by
  cases c with
  | idle => cases h
  | added | starting | spawning => cases h; rfl
  | polling call => cases hc

/-! ## The invariant -/

theorem Excluded.step {s s' : SharedReader} {l : ReaderStep} (h : s.Excluded)
    (halone : s.SetsFlagAlone l) (hs : s.step l = some s') : s'.Excluded := by
  cases step_stepped hs with
  | arrived | disconnected => exact h
  | added => exact fun hon => forall_mem_set (h hon) rfl
  | removed => exact fun hon => forall_mem_set (h (callbacksActive_of_removeListener hon)) rfl
  | polled => exact fun hon => forall_mem_set (h hon) (isPolling_poll hon _)
  | @client j now c next hj hnext =>
    cases c with
    | idle => cases hnext
    | added =>
      cases hnext
      refine fun hon => forall_mem_set (h hon) ?_
      show (if s.callbacksActive = true then Client.idle else .starting).isPolling = false
      split_ifs <;> rfl
    | starting =>
      -- The flag is set, and finds nobody polling.
      cases hnext
      exact fun _ => forall_mem_set (halone hj) rfl
    | spawning => cases hnext; exact fun hon => forall_mem_set (h hon) rfl
    | polling call =>
      obtain ⟨-, -, hmode⟩ := advanceClient_polling hnext
      intro hon
      exact absurd (h (hmode.symm.trans hon) _ (mem_of_getElem? hj)) (by simp [Client.isPolling])
  | @thread k now t next hk hnext =>
    obtain ⟨hmode, hclients⟩ := advanceThread_frame hnext
    intro hon
    show ∀ c ∈ next.2.clients, c.isPolling = false
    rw [hclients]
    exact h (hmode.symm.trans hon)

theorem Excluded.pollsNothing {s : SharedReader} (h : s.Excluded) (l : ReaderStep) :
    s.PollsNothing l := by
  cases l with
  | client j now =>
    intro hon s' hs
    cases step_stepped hs with
    | @client _ _ c _ hj hnext => exact ring_advanceClient (h hon c (mem_of_getElem? hj)) hnext
  | arrive | disconnect | call | thread => trivial

/-! ## A call that is caught -/

/-- A polling call takes the oldest message, whatever the flag says. -/
theorem takes_of_polling {s : SharedReader} {i : ℕ} {call : PollCall} (now : Instant)
    (hi : s.clients[i]? = some (.polling call)) (hover : call.isOver s.expiration = false)
    (hitems : s.ring.items ≠ []) :
    ∃ s', s.step (.client i now) = some s' ∧ s'.ring = s.ring.advance := by
  cases hr : s.ring.items with
  | nil => exact absurd hr hitems
  | cons x rest =>
    obtain ⟨t, m⟩ := x
    simp only [step, hi, Option.bind_some, advanceClient, hover, Bool.false_eq_true, if_false,
      RingBuf.recv_of_cons hr]
    split <;> exact ⟨_, rfl, rfl⟩

/-- A call that the flag catches takes the next message in callback mode. -/
theorem not_pollsNothing_of_caught {s : SharedReader} {i j : ℕ} {call : PollCall} (now : Instant)
    (hj : s.clients[j]? = some .starting) (hi : s.clients[i]? = some (.polling call))
    (hover : call.isOver s.expiration = false) (hitems : s.ring.items ≠ []) :
    ¬ EachStep step PollsNothing s [.client j now, .client i now] := by
  intro hall
  have hne : j ≠ i := by
    rintro rfl
    cases hj.symm.trans hi
  have hset : s.step (.client j now) =
      some { s with callbacksActive := true, clients := s.clients.set j .spawning } := by
    simp only [step, hj, Option.bind_some, advanceClient, Option.map_some]
    rfl
  obtain ⟨-, hall⟩ := (eachStep_cons_iff hset).1 hall
  obtain ⟨s', hs', hring⟩ := takes_of_polling
    (s := { s with callbacksActive := true, clients := s.clients.set j .spawning }) now
    ((List.getElem?_set_ne hne).trans hi) hover hitems
  have hsame := (hall s' hs').1 rfl s' hs'
  rw [hring] at hsame
  have hlength := congrArg (fun r => r.items.length) hsame
  have hpos : 0 < s.ring.items.length := List.length_pos_iff.2 hitems
  simp only [RingBuf.items_advance, List.length_tail] at hlength
  omega

/-- **Callback mode excludes polling**, in every run in which the flag is set while no client is in
a polling call, for any number of clients. -/
theorem polling_excluded (capacity : ℕ) (expiration : Option Duration) (n : ℕ)
    (ls : List ReaderStep) (halone : EachStep step SetsFlagAlone (new capacity expiration n) ls) :
    EachStep step PollsNothing (new capacity expiration n) ls := by
  have hinv : Always step Excluded (new capacity expiration n) ls :=
    .of_inv (fun _ _ _ h hl hs => h.step hl hs) (fun hon => nomatch hon) halone
  exact .of_always (fun s l h _ => h.pollsNothing l) hinv halone

/-- A client reads a message before another one makes its listener known, and is refused after. -/
theorem polling_excluded_in_turn :
    EachStep step PollsNothing (new 4 none 2)
      [.arrive 1, .call 0 .read 1, .call 1 (.addListener 7) 1, .client 1 1, .client 0 1,
        .client 1 1, .arrive 2, .call 0 .tryRead 2, .client 1 2, .thread 0 2, .thread 0 2] :=
  polling_excluded 4 none 2 _ (by decide)

/-- A `read` waits while another client adds a listener: it takes the message that arrives after the
flag was set. -/
theorem read_takes_in_callback_mode :
    ∃ s s' : SharedReader,
      run step (new 4 none 2)
        [.call 0 .read 0, .call 1 (.addListener 7) 0, .client 1 0, .client 1 0, .client 1 0,
          .arrive 1] = some s ∧
      s.callbacksActive = true ∧ s.listeners = [⟨7, 0⟩] ∧ s.threads = [.head] ∧
      s.step (.client 0 1) = some s' ∧ s'.returned = [0] ∧ s'.ring.items = [] ∧
      ¬ s.PollsNothing (.client 0 1) := by
  refine ⟨_, _, rfl, rfl, rfl, rfl, rfl, rfl, rfl, fun h => ?_⟩
  have hsame := congrArg (fun r => r.items.length) (h rfl _ rfl)
  exact absurd hsame (by decide)

end SharedReader

end Rounac
