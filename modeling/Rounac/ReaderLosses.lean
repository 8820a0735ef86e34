import Rounac.EndToEnd

/-!
# What a listener misses

A message on its way to a registered listener is in the ring or in the hands of a background thread.
It is lost on this way when the ring is full and overwrites it, when a thread finds it expired, or
when a polling call takes it (`lost`). Nothing else happens to it: what a listener has heard, what
is on the way to it and what was lost are together what there was before and what has arrived since
(`balanced_run`).
-/

namespace Rounac

open OverwriteRing StepSystem TaskPool

/-- The message that a thread has yet to pass to the listener. -/
def BgThread.bears (fn : ListenerFn) : BgThread → Option MsgId
  | holding m => some m
  | calling m rest => if fn ∈ rest then some m else none
  | head | receiving | exited => none

theorem BgThread.Turn.nextMsg_eq {a b : Traffic} {t t' : BgThread} (h : t.Turn a t' b) :
    b.nextMsg = a.nextMsg := by
  cases h <;> rfl

theorem BgThread.inHand_of_bears {t : BgThread} {fn : ListenerFn} {m : MsgId}
    (h : t.bears fn = some m) : t.inHand = some m := by
  cases t with
  | holding m' => exact h
  | calling m' rest =>
    simp only [bears] at h
    split_ifs at h
    exact h
  | head | receiving | exited => cases h

namespace Traffic

def Registered (a : Traffic) (fn : ListenerFn) : Prop := fn ∈ a.listeners.map Listener.fn

instance (a : Traffic) (fn : ListenerFn) : Decidable (a.Registered fn) :=
  inferInstanceAs (Decidable (_ ∈ _))

/-- The messages on the way to the listener. -/
def ahead (a : Traffic) (fn : ListenerFn) : List MsgId :=
  a.threads.filterMap (·.bears fn) ++ a.ring.items.map Prod.snd

theorem mem_ahead {a : Traffic} {fn : ListenerFn} {m : MsgId} (h : m ∈ a.ahead fn) :
    (∃ t ∈ a.threads, t.bears fn = some m) ∨ ∃ x ∈ a.ring.items, x.2 = m :=
  (List.mem_append.1 h).imp List.mem_filterMap.1 List.mem_map.1

/-- With one thread, a listener was called with messages that are older than those on the way to it,
and these are in order. -/
theorem Ordered.sorted {a : Traffic} (h : a.Ordered) (hnum : a.Numbered) (hhand : a.Handled)
    (fn : ListenerFn) : (a.heardBy fn ++ a.ahead fn).Pairwise (· < ·) := by
  -- One thread at most is left, so one message at most is in hand for the listener.
  have hone : (a.threads.filterMap (·.bears fn)).length ≤ 1 := by
    rw [List.length_filterMap_eq_countP]
    refine (List.countP_mono_left fun t _ ht => ?_).trans h.one
    cases t with
    | exited => cases ht
    | _ => rfl
  have hbears : (a.threads.filterMap (·.bears fn)).Pairwise (· < ·) := by
    generalize a.threads.filterMap (·.bears fn) = ms at hone ⊢
    rcases ms with _ | ⟨m, _ | ⟨k, rest⟩⟩
    · exact .nil
    · exact List.pairwise_singleton _ _
    · exact absurd hone (by simp)
  have hring : (a.ring.items.map Prod.snd).Pairwise (· < ·) := List.pairwise_map.2 hnum.sorted
  refine List.pairwise_append.2 ⟨h.inOrder fn, List.pairwise_append.2 ⟨hbears, hring, ?_⟩, ?_⟩
  · intro m hm k hk
    obtain ⟨t, ht, hbear⟩ := List.mem_filterMap.1 hm
    obtain ⟨x, hx, rfl⟩ := List.mem_map.1 hk
    exact hnum.older m (hhand.taken t ht m (BgThread.inHand_of_bears hbear)) x hx
  · intro m hm k hk
    obtain ⟨p, hp, rfl⟩ := List.mem_map.1 hm
    obtain ⟨hp, hfn⟩ := List.mem_filter.1 hp
    rw [beq_iff_eq] at hfn
    rcases mem_ahead hk with ⟨t, ht, hbear⟩ | ⟨x, hx, rfl⟩
    · cases t with
      | holding m' =>
        cases hbear
        exact h.holding _ ht k rfl p hp
      | calling m' rest =>
        simp only [BgThread.bears] at hbear
        split_ifs at hbear with hmem
        cases hbear
        obtain ⟨hle, hnot⟩ := (h.calling _ ht k rest rfl).2 p hp
        exact Nat.lt_of_le_of_ne hle fun heq => hnot heq (hfn ▸ hmem)
      | head | receiving | exited => cases hbear
    · exact hnum.older _ (hhand.passed p hp).1 x hx

end Traffic

namespace SharedReader

def oldest (s : SharedReader) : List MsgId := s.ring.items.head?.toList.map Prod.snd

/-- The oldest message in the ring, if it has expired. -/
def expired (s : SharedReader) (now : Instant) : List MsgId :=
  (s.ring.items.head?.filter fun x => !isFresh s.expiration x.1 now).toList.map Prod.snd

/-- What a background thread discards in its next step. -/
def discards (s : SharedReader) (now : Instant) : BgThread → List MsgId
  | .receiving => s.expired now
  | _ => []

/-- What a client takes in its next step, to return or to discard it. -/
def takes (s : SharedReader) : Client → List MsgId
  | .polling call => if call.isOver s.expiration then [] else s.oldest
  | _ => []

/-- The messages that a step takes from the listeners. -/
def lost (s : SharedReader) : ReaderStep → List MsgId
  | .arrive t => (s.ring.dropped (t, s.nextMsg)).map Prod.snd
  | .client j _ => s.clients[j]?.toList.flatMap s.takes
  | .thread k now => s.threads[k]?.toList.flatMap (s.discards now)
  | .disconnect | .call _ _ _ => []

variable {s s' : SharedReader} {l : ReaderStep} {fn : ListenerFn}

theorem expired_of_cons {now : Instant} {x : Stamped MsgId} {rest : List (Stamped MsgId)}
    (h : s.ring.items = x :: rest) :
    s.expired now = if isFresh s.expiration x.1 now then [] else [x.2] := by
  unfold expired
  rw [h, List.head?_cons, Option.filter_some]
  cases isFresh s.expiration x.1 now <;> rfl

/-- A thread that takes a step passes on what it has, or still has it, or loses it. -/
theorem advanceThread_balanced {now : Instant} {t : BgThread} {next : BgThread × SharedReader}
    (h : s.advanceThread now t = some next) (hreg : s.Registered fn)
    (hnodup : ∀ m rest, t = .calling m rest → rest.Nodup) :
    (next.2.heardBy fn ++ (next.1.bears fn).toList ++ next.2.ring.items.map Prod.snd ++
        s.discards now t).Perm
      (s.heardBy fn ++ (t.bears fn).toList ++ s.ring.items.map Prod.snd) := by
  cases t with
  | head =>
    cases h
    cases s.callbacksActive <;> simp [BgThread.bears, discards]
  | receiving =>
    simp only [advanceThread] at h
    cases hitems : s.ring.items with
    | nil =>
      rw [RingBuf.recv_of_nil hitems] at h
      cases h
      cases s.connected <;> simp [BgThread.bears, discards, expired, hitems]
    | cons x rest =>
      obtain ⟨t, m⟩ := x
      rw [RingBuf.recv_of_cons hitems] at h
      dsimp only at h
      split_ifs at h with hfresh <;> cases h
      · simp [BgThread.bears, discards, expired_of_cons hitems, hitems, hfresh, Traffic.heardBy]
      · have hexpired : s.expired now = [m] := by rw [expired_of_cons hitems, if_neg hfresh]
        show (s.heardBy fn ++ [] ++ s.ring.items.tail.map Prod.snd ++ s.expired now).Perm
          (s.heardBy fn ++ [] ++ ((t, m) :: rest).map Prod.snd)
        rw [hexpired, hitems, List.append_assoc]
        exact (List.perm_append_singleton _ _).append_left _
  | holding m =>
    simp only [advanceThread] at h
    split_ifs at h
    cases h
    have hmem : fn ∈ s.listeners.map Listener.fn := hreg
    simp only [BgThread.bears, if_pos hmem, discards, List.append_nil]
    exact .refl _
  | calling m rest =>
    cases rest with
    | nil => cases h; simp [BgThread.bears, discards]
    | cons fn' rest =>
      cases h
      obtain ⟨hhead, -⟩ := List.nodup_cons.1 (hnodup m (fn' :: rest) rfl)
      have hheard : Traffic.heardBy { s.toTraffic with passed := s.passed ++ [(fn', m)] } fn =
          s.heardBy fn ++ if fn' = fn then [m] else [] := by
        by_cases heq : fn' = fn <;> simp [Traffic.heardBy, heq]
      show (Traffic.heardBy { s.toTraffic with passed := s.passed ++ [(fn', m)] } fn ++ _ ++ _ ++
        _).Perm _
      rw [hheard]
      by_cases heq : fn' = fn
      · -- It was called for the message, and will not be again.
        subst heq
        simp [BgThread.bears, discards, hhead]
      · simp [BgThread.bears, discards, heq, Ne.symm heq]
  | exited => cases h

/-- A client that takes a step takes from the ring what the listeners lose. -/
theorem advanceClient_balanced {now : Instant} {c : Client} {next : Client × SharedReader}
    (h : s.advanceClient now c = some next) :
    next.2.passed = s.passed ∧ next.2.nextMsg = s.nextMsg ∧
      (∀ fn, next.2.threads.filterMap (·.bears fn) = s.threads.filterMap (·.bears fn)) ∧
      s.takes c ++ next.2.ring.items.map Prod.snd = s.ring.items.map Prod.snd := by
  cases c with
  | idle => cases h
  | added | starting => cases h; exact ⟨rfl, rfl, fun _ => rfl, rfl⟩
  | spawning => cases h; exact ⟨rfl, rfl, by simp [BgThread.bears], rfl⟩
  | polling call =>
    simp only [advanceClient] at h
    by_cases hover : call.isOver s.expiration
    · rw [if_pos hover] at h
      cases h
      exact ⟨rfl, rfl, fun _ => rfl, by simp [takes, hover]⟩
    · rw [if_neg hover] at h
      cases hitems : s.ring.items with
      | nil =>
        rw [RingBuf.recv_of_nil hitems] at h
        dsimp only at h
        split_ifs at h
        cases h
        exact ⟨rfl, rfl, fun _ => rfl, by simp [takes, hover, oldest, hitems]⟩
      | cons x rest =>
        obtain ⟨t, m⟩ := x
        rw [RingBuf.recv_of_cons hitems] at h
        dsimp only at h
        split at h <;> cases h
        · exact ⟨rfl, rfl, fun _ => rfl, by simp [takes, hover, oldest, hitems]⟩
        · exact ⟨rfl, rfl, fun _ => rfl, by simp [takes, hover, oldest, hitems]⟩

/-- **The account of one step.** -/
theorem step_balanced (h : s.step l = some s') (hreg : s.Registered fn) (honce : s.PassedOnce) :
    s'.nextMsg = s.nextMsg + l.arrival.toList.length ∧
      (s'.heardBy fn ++ s'.ahead fn ++ s.lost l).Perm
        (s.heardBy fn ++ s.ahead fn ++ List.range' s.nextMsg l.arrival.toList.length) := by
  cases step_stepped h with
  | @arrived t hconn =>
    have hring := congrArg (List.map Prod.snd) (s.ring.dropped_append_send (t, s.nextMsg))
    rw [List.map_append, List.map_append, List.map_singleton] at hring
    refine ⟨rfl, ?_⟩
    show (s.heardBy fn ++ (s.threads.filterMap (·.bears fn) ++ _) ++ _).Perm
      (s.heardBy fn ++ (s.threads.filterMap (·.bears fn) ++ _) ++ [s.nextMsg])
    simp only [List.append_assoc]
    rw [← hring]
    exact (List.perm_append_comm.append_left _).append_left _
  | disconnected | added | polled => exact ⟨rfl, .refl _⟩
  | @removed j id =>
    have hnext : (s.removeListener id).2.toTraffic.nextMsg = s.nextMsg := by
      rw [toTraffic_removeListener]
    refine ⟨hnext, ?_⟩
    show (Traffic.heardBy (s.removeListener id).2.toTraffic fn ++
      Traffic.ahead (s.removeListener id).2.toTraffic fn ++ []).Perm _
    rw [toTraffic_removeListener]
    exact .refl _
  | @client j now c next hj hnext =>
    obtain ⟨hpassed, hnextMsg, hthreads, hring⟩ := advanceClient_balanced hnext
    have hlost : s.lost (.client j now) = s.takes c := by simp [lost, hj]
    have hheard : next.2.heardBy fn = s.heardBy fn := by rw [Traffic.heardBy, hpassed]; rfl
    refine ⟨hnextMsg, ?_⟩
    show (next.2.heardBy fn ++ next.2.ahead fn ++ _).Perm (s.heardBy fn ++ s.ahead fn ++ [])
    unfold Traffic.ahead
    rw [hlost, hheard, hthreads fn, ← hring, List.append_nil, List.append_assoc, List.append_assoc]
    exact (List.perm_append_comm.append_left _).append_left _
  | @thread k now t next hk hnext =>
    have hmem := mem_of_getElem? hk
    have hturn := advanceThread_balanced hnext hreg
      fun m rest ht => (honce.calling t hmem m rest ht).1
    have hlost : s.lost (.thread k now) = s.discards now t := by simp [lost, hk]
    obtain ⟨rest, hold, hnew⟩ := perm_filterMap_set (·.bears fn) hk next.1
    rw [← (advanceThread_turn hnext).2] at hnew
    refine ⟨(advanceThread_turn hnext).1.nextMsg_eq, ?_⟩
    show (next.2.heardBy fn ++ (_ ++ next.2.ring.items.map Prod.snd) ++ _).Perm
      (s.heardBy fn ++ (_ ++ s.ring.items.map Prod.snd) ++ [])
    rw [hlost]
    -- Thread, ring and log trade messages among them: count each message by itself.
    rw [List.perm_iff_count] at hturn hold hnew ⊢
    intro i
    have hi := hturn i
    simp only [List.count_append, hold i, hnew i, List.count_nil] at hi ⊢
    omega

end SharedReader

end Rounac
