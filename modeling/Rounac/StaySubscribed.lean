import Rounac.Lib.TaskPool
import Rounac.Networks.Race

/-!
# Live MQTT readers and their subscription

The registry and the requests to the broker are updated at different times: a creation subscribes
before it inserts the entry, and the last removal unsubscribes after it erased it. The last request
for a registered topic is a subscribe in the runs where no unsubscribe is sent while the topic has
an entry again, or a call that subscribed is about to make it one (`entry_stays_subscribed`).
-/

namespace Rounac

open StepSystem TaskPool

/-- The request subscribes to the topic or unsubscribes from it. -/
def BrokerRequest.isFor (topic : String) : BrokerRequest → Bool
  | .subscribe t _ | .unsubscribe t => t == topic
  | _ => false

def BrokerRequest.isSubscribe : BrokerRequest → Bool
  | .subscribe _ _ => true
  | _ => false

/-- The last subscribe or unsubscribe request for the topic is a subscribe. -/
def NetAsb.Subscribed {Val : Type} (topic : String) (asb : NetAsb Val) : Prop :=
  ∃ r ∈ (asb.requests.filter (·.isFor topic)).getLast?, r.isSubscribe

namespace Race

variable {Val : Type} {T : TypeId} {topic : String}

/-- When nothing is in progress and the topic has an entry, the broker has it subscribed. -/
def StaysSubscribed (topic : String) (s : Race Val) : Prop :=
  s.Quiet → (s.asb.readers.lookup topic).isSome → s.asb.Subscribed topic

/-- When an unsubscribe is sent, the topic has no entry and no call is about to insert one. -/
def UnsubscribesAlone (topic : String) (s : Race Val) : RaceStep → Prop
  | .advance i _ _ =>
      ∀ t ∈ s.tasks[i]?, t.phase.isCancelling →
        s.asb.readers.lookup topic = none ∧ ∀ u ∈ s.tasks, ¬ u.phase.isInserting
  | _ => True

instance (topic : String) (s : Race Val) : ∀ l, Decidable (s.UnsubscribesAlone topic l)
  | .advance _ _ _ | .call _ _ _ | .drop _ => by unfold UnsubscribesAlone; infer_instance

/-- The client makes the request of a subscription. -/
def Forwards : RaceStep → Prop
  | .advance _ reply _ => reply.subscribe = .ok ()
  | _ => True

instance : DecidablePred Forwards
  | .advance _ _ _ | .call _ _ _ | .drop _ => by unfold Forwards; infer_instance

/-- The topic has an entry or a call is about to insert one. -/
def Wanted (topic : String) (s : Race Val) : Prop :=
  (s.asb.readers.lookup topic).isSome ∨ ∃ t ∈ s.tasks, t.phase.isInserting

/-- A wanted topic is subscribed. -/
def Covered (topic : String) (s : Race Val) : Prop := s.Wanted topic → s.asb.Subscribed topic

theorem subscribed_request {asb : NetAsb Val} (qos : MqttQos) :
    (asb.request (.subscribe topic qos)).Subscribed topic := by
  refine ⟨.subscribe topic qos, ?_, rfl⟩
  simp [NetAsb.request, BrokerRequest.isFor]

/-- A step of an MQTT call or drop subscribes, or it is the step after a removal, or it makes no
request and wants the topic no more than before. -/
theorem advance_mqtt_cases {counter : String} {cfg : BusConfig} {reply : BrokerReply}
    {id : SenderId} {p : Phase} {asb : NetAsb Val} {next : Phase × NetAsb Val}
    (hreply : reply.subscribe = .ok ())
    (h : Broker.mqtt.advance T counter cfg reply id asb p = some next) :
    (∃ qos, next.2 = asb.request (.subscribe cfg.busTopic qos)) ∨
    (p.isCancelling ∧ ¬ next.1.isInserting ∧ next.2.readers = asb.readers) ∨
    (next.2.requests = asb.requests ∧ ¬ next.1.isInserting ∧
      ((next.2.readers.lookup cfg.busTopic).isSome →
        (asb.readers.lookup cfg.busTopic).isSome ∨ p.isInserting)) := by
  cases p with
  | subscribing =>
    cases h
    -- The client forwards what it is asked, so the subscribe goes out.
    refine .inl ⟨NetAsb.mqttQos cfg.qos, ?_⟩
    show (asb.mqttSubscribe cfg reply).2 = _
    rw [NetAsb.mqttSubscribe, hreply]
  | cancelling net last =>
    cases h
    refine .inr (.inl ⟨rfl, by simp [Phase.isInserting], ?_⟩)
    cases net.cancel last <;> rfl
  | lookup =>
    simp only [Broker.advance] at h
    split at h
    · split_ifs at h <;> cases h <;> exact .inr (.inr ⟨rfl, by simp [Phase.isInserting], .inl⟩)
    · cases h
      exact .inr (.inr ⟨rfl, by simp [Phase.isInserting], .inl⟩)
  | inserting tag =>
    cases h
    exact .inr (.inr ⟨rfl, by simp [Phase.isInserting], fun _ => .inr rfl⟩)
  | counting m =>
    simp only [Broker.advance, NetAsb.addReader] at h
    cases he : asb.readers.lookup cfg.busTopic <;> rw [he] at h <;> cases h
    · exact .inr (.inr ⟨rfl, by simp [Phase.isInserting], fun hs => by simp [he] at hs⟩)
    · exact .inr (.inr ⟨rfl, by simp [Phase.isInserting], fun _ => .inl rfl⟩)
  | registering m =>
    cases h
    exact .inr (.inr ⟨rfl, by simp [Phase.isInserting], .inl⟩)
  | deleting r =>
    simp only [Broker.advance, NetAsb.delReaderLocked] at h
    cases he : asb.readers.lookup cfg.busTopic with
    | none =>
      rw [he] at h
      cases h
      exact .inr (.inr ⟨rfl, by simp [Phase.isInserting], fun hs => by simp [he] at hs⟩)
    | some e =>
      rw [he] at h
      dsimp only at h
      split_ifs at h <;> cases h <;>
        exact .inr (.inr ⟨rfl, by simp [Phase.isInserting], fun _ => .inl rfl⟩)
  | declaring | binding | consuming | live | failed | panicked | gone => cases h

/-- A task that is not about to insert an entry adds nothing to what is wanted. -/
theorem wanted_of_set {s : Race Val} {i : ℕ} {t : Task} (next : Phase × NetAsb Val)
    (ht : s.tasks[i]? = some t) (hnext : ¬ next.1.isInserting)
    (hentry : (next.2.readers.lookup topic).isSome →
      (s.asb.readers.lookup topic).isSome ∨ t.phase.isInserting)
    (h : Wanted topic ⟨next.2, s.tasks.set i { t with phase := next.1 }⟩) : s.Wanted topic := by
  rcases h with he | ⟨u, hu, hins⟩
  · rcases hentry he with he | hins
    · exact .inl he
    · exact .inr ⟨t, mem_of_getElem? ht, hins⟩
  · rcases List.mem_or_eq_of_mem_set hu with hu | rfl
    · exact .inr ⟨u, hu, hins⟩
    · exact absurd hins hnext

theorem Covered.step {s s' : Race Val} {l : RaceStep} (h : s.Covered topic) (hforwards : Forwards l)
    (hunsub : s.UnsubscribesAlone topic l) (hs : s.step .mqtt T topic l = some s') :
    s'.Covered topic := by
  cases l with
  | call counter wireFormat qos =>
    cases hs
    intro hw
    refine h (hw.imp_right ?_)
    rintro ⟨t, ht, hins⟩
    rcases List.mem_append.1 ht with ht | ht
    · exact ⟨t, ht, hins⟩
    · cases List.mem_singleton.1 ht
      cases hins
  | advance i reply id =>
    obtain ⟨t, ht, hs⟩ := Option.bind_eq_some_iff.1 hs
    obtain ⟨next, hnext, rfl⟩ := Option.map_eq_some_iff.1 hs
    rcases advance_mqtt_cases hforwards hnext with
      ⟨qos, hreq⟩ | ⟨hcancel, hnot, hsame⟩ | ⟨hreq, hnot, hentry⟩
    · intro _
      show next.2.Subscribed topic
      rw [hreq]
      exact subscribed_request qos
    · -- The topic is not wanted when the unsubscribe is sent.
      obtain ⟨hnone, hno⟩ := hunsub t ht hcancel
      intro hw
      rcases wanted_of_set next ht hnot (fun he => .inl (hsame ▸ he)) hw with he | ⟨u, hu, hins⟩
      · simp [hnone] at he
      · exact absurd hins (hno u hu)
    · intro hw
      have hsub := h (wanted_of_set next ht hnot hentry hw)
      show next.2.Subscribed topic
      rw [NetAsb.Subscribed, hreq]
      exact hsub
  | drop i =>
    obtain ⟨t, ht, hs⟩ := Option.bind_eq_some_iff.1 hs
    cases hp : t.phase <;> rw [hp] at hs <;> cases hs
    intro hw
    exact h (wanted_of_set (.deleting _, _) ht (by simp [Phase.isInserting]) .inl hw)

/-- **A registered MQTT topic stays subscribed**, as the client forwards the subscriptions, in the
runs in which an unsubscribe is only sent while the topic has no entry and no call is about to
insert one. -/
theorem entry_stays_subscribed (T : TypeId) (topic : String) {asb : NetAsb Val}
    (hfree : asb.readers.lookup topic = none) (ls : List RaceStep)
    (hforwards : ∀ l ∈ ls, Forwards l)
    (hunsub : EachStep (step .mqtt T topic) (UnsubscribesAlone topic) ⟨asb, []⟩ ls) :
    Always (step .mqtt T topic) (StaysSubscribed topic) ⟨asb, []⟩ ls := by
  have hstart : Covered topic (⟨asb, []⟩ : Race Val) := by
    rintro (he | ⟨t, ht, -⟩)
    · simp [hfree] at he
    · cases ht
  have hinv : Always (step .mqtt T topic) (Covered topic) ⟨asb, []⟩ ls :=
    Always.of_inv (fun s l s' h hop hs => h.step hop.1 hop.2 hs) hstart
      ((EachStep.of_mem hforwards _).and hunsub)
  exact hinv.mono fun s h _ he => h (.inl he)

/-- A new reader subscribes after the last one has unsubscribed. -/
theorem entry_stays_subscribed_again :
    Always (step .mqtt ⟨0⟩ "t") (StaysSubscribed "t") (⟨.new, []⟩ : Race Unit)
      [.call "a" .xml .default, .advance 0 .accepting 1, .advance 0 .accepting 1,
        .advance 0 .accepting 1, .advance 0 .accepting 1, .advance 0 .accepting 1, .drop 0,
        .advance 0 .accepting 1, .call "a" .xml .default, .advance 1 .accepting 2,
        .advance 0 .accepting 1, .advance 1 .accepting 2, .advance 1 .accepting 2,
        .advance 1 .accepting 2, .advance 1 .accepting 2] :=
  entry_stays_subscribed ⟨0⟩ "t" rfl _ (by decide) (by decide)

/-- A new reader subscribes and registers between the removal of the last one and its unsubscribe:
the reader is live, and the broker has it unsubscribed. -/
theorem unsubscribe_after_new_reader :
    ∃ s : Race Unit,
      run (step .mqtt ⟨0⟩ "t") ⟨.new, []⟩
        [.call "a" .xml .default, .advance 0 .accepting 1, .advance 0 .accepting 1,
          .advance 0 .accepting 1, .advance 0 .accepting 1, .advance 0 .accepting 1, .drop 0,
          .advance 0 .accepting 1, .call "a" .xml .default, .advance 1 .accepting 2,
          .advance 1 .accepting 2, .advance 1 .accepting 2, .advance 1 .accepting 2,
          .advance 1 .accepting 2, .advance 0 .accepting 1] = some s ∧
      s.Quiet ∧ s.asb.readers.lookup "t" = some ⟨1, 1, "t"⟩ ∧
      s.asb.requests =
        [.subscribe "t" .atLeastOnce, .subscribe "t" .atLeastOnce, .unsubscribe "t"] ∧
      ¬ s.StaysSubscribed "t" := by
  refine ⟨_, rfl, by decide, rfl, rfl, fun h => ?_⟩
  obtain ⟨r, hr, hsub⟩ := h (by decide) rfl
  have hlast : r = .unsubscribe "t" := (Option.some.inj hr).symm
  rw [hlast] at hsub
  cases hsub

end Race

end Rounac
