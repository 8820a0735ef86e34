import Rounac.Lib.OverwriteRing

/-!
# Rings and time

A channel is a ring with its future: whether a sender is left, the clock, and what the senders will
do, each event so long after the one before it. `RecvTimeout` is any receive with a timeout on
channels, and `AtZero` what it is relied on to do when it is given no time.

`RecvTimeout.ofRing` is such a receive: it takes what is there, and otherwise lets the clock run
until something comes in, the last sender goes, or the time is up.
-/

namespace OverwriteRing

variable {α : Type*}

/-- What the senders of a ring do. -/
inductive Event (α : Type*)
  | sent (x : α)
  | closed

/-- How a receive with a timeout ends. It panics on times that the clock does not have. -/
inductive Answer (α : Type*)
  | got (x : α)
  | timeout
  | disconnected
  | panicked

/-- A ring with its future. -/
structure Channel (α : Type*) where
  ring : RingBuf α
  connected : Bool
  now : ℕ
  schedule : List (ℕ × Event α)

namespace Channel

/-- The messages that can still be received. -/
def size (c : Channel α) : ℕ := c.ring.items.length + c.schedule.length

/-- The first event happens. -/
def after (c : Channel α) (wait : ℕ) (rest : List (ℕ × Event α)) : Event α → Channel α
  | .sent x => ⟨c.ring.send x, c.connected, c.now + wait, rest⟩
  | .closed => ⟨c.ring, false, c.now + wait, rest⟩

/-- A receive that may wait for `d`, while the events of `schedule` come in. -/
def recvFrom : ℕ → Channel α → List (ℕ × Event α) → Answer α × Channel α
  | d, c, schedule =>
    match c.ring.recv with
    | some (x, ring) => (.got x, { c with ring, schedule })
    | none =>
      if c.connected then
        match schedule with
        | [] => (.timeout, { c with now := c.now + d, schedule := [] })
        | (wait, e) :: rest =>
          if wait < d then recvFrom (d - wait) (c.after wait rest e) rest
          else (.timeout, { c with now := c.now + d, schedule := (wait - d, e) :: rest })
      else (.disconnected, { c with schedule })
termination_by structural _ _ schedule => schedule

section

variable {c c' : Channel α} {d : ℕ} {x : α}

/-! ### What is there already -/

theorem recvFrom_of_cons {xs : List α} (h : c.ring.items = x :: xs) (d : ℕ) :
    recvFrom d c c.schedule = (.got x, { c with ring := c.ring.advance }) := by
  unfold recvFrom
  rw [RingBuf.recv_of_cons h]

theorem recvFrom_of_closed (h : c.ring.items = []) (hclosed : c.connected = false) (d : ℕ) :
    recvFrom d c c.schedule = (.disconnected, c) := by
  obtain ⟨ring, connected, now, schedule⟩ := c
  subst hclosed
  unfold recvFrom
  rw [RingBuf.recv_of_nil h]
  rfl

theorem recvFrom_zero_of_idle (h : c.ring.items = []) (hopen : c.connected = true) :
    recvFrom 0 c c.schedule = (.timeout, c) := by
  obtain ⟨ring, connected, now, schedule⟩ := c
  subst hopen
  unfold recvFrom
  rw [RingBuf.recv_of_nil h]
  cases schedule with
  | nil => rfl
  | cons e rest => rfl

/-! ### What can still be received -/

theorem size_after (c : Channel α) (wait : ℕ) (rest : List (ℕ × Event α)) (e : Event α) :
    (c.after wait rest e).size ≤ c.ring.items.length + (rest.length + 1) := by
  cases e with
  | sent x =>
    have hlen := (c.ring.send_suffix x).length_le
    rw [List.length_append, List.length_singleton] at hlen
    show (c.ring.send x).items.length + rest.length ≤ _
    omega
  | closed => exact Nat.add_le_add_left (Nat.le_succ _) _

theorem schedule_after (c : Channel α) (wait : ℕ) (rest : List (ℕ × Event α)) (e : Event α) :
    (c.after wait rest e).schedule = rest := by
  cases e <;> rfl

theorem size_recvFrom {schedule : List (ℕ × Event α)}
    (h : recvFrom d c schedule = (.got x, c')) :
    c'.size < c.ring.items.length + schedule.length := by
  induction schedule generalizing d c with
  | nil =>
    unfold recvFrom at h
    split at h
    · rename_i y ring hrecv
      obtain ⟨rest, hitems, rfl⟩ := RingBuf.exists_of_recv hrecv
      cases h
      simp [size, hitems]
    · split_ifs at h
      · cases h
      · cases h
  | cons e rest ih =>
    unfold recvFrom at h
    split at h
    · rename_i y ring hrecv
      obtain ⟨items, hitems, rfl⟩ := RingBuf.exists_of_recv hrecv
      cases h
      simp [size, hitems]
    · split_ifs at h with hopen
      · obtain ⟨wait, e⟩ := e
        dsimp only at h
        split_ifs at h with hwait
        · have hlt := ih h
          -- The event that is waited for adds one message at most, and is used up.
          have hle := c.size_after wait rest e
          rw [size, schedule_after] at hle
          rw [List.length_cons]
          omega
        · cases h
      · cases h

end

end Channel

/-! ## Receives -/

/-- A receive with a timeout: each message it gives is one less to come. -/
structure RecvTimeout (α : Type*) where
  recv : ℕ → Channel α → Answer α × Channel α
  shrinks : ∀ {d c c' x}, recv d c = (.got x, c') → c'.size < c.size

namespace RecvTimeout

/-- Without time a receive reports a disconnection, or that nothing is there; `eager` tells whether
it takes a message that is. -/
structure AtZero (lib : RecvTimeout α) (eager : Bool) : Prop where
  closed : ∀ {c}, c.ring.items = [] → c.connected = false → lib.recv 0 c = (.disconnected, c)
  idle : ∀ {c}, c.ring.items = [] → c.connected = true → lib.recv 0 c = (.timeout, c)
  waiting : ∀ {c x xs}, c.ring.items = x :: xs → lib.recv 0 c =
    if eager then (.got x, { c with ring := c.ring.advance }) else (.timeout, c)

/-- A receive that takes messages without time too, if `eager`. -/
def ofRing (eager : Bool) : RecvTimeout α where
  recv d c :=
    if d = 0 ∧ c.ring.items ≠ [] ∧ eager = false then (.timeout, c)
    else Channel.recvFrom d c c.schedule
  shrinks {d c c' x} h := by
    split_ifs at h
    · cases h
    · exact Channel.size_recvFrom h

theorem ofRing_of_cons {c : Channel α} {x : α} {xs : List α} (h : c.ring.items = x :: xs) {d : ℕ}
    {eager : Bool} (hd : d ≠ 0 ∨ eager = true) :
    (ofRing eager).recv d c = (.got x, { c with ring := c.ring.advance }) := by
  refine (if_neg ?_).trans (Channel.recvFrom_of_cons h d)
  rintro ⟨rfl, -, rfl⟩
  simp at hd

theorem ofRing_of_nil {c : Channel α} (h : c.ring.items = []) (d : ℕ) (eager : Bool) :
    (ofRing eager).recv d c = Channel.recvFrom d c c.schedule :=
  if_neg fun hd => hd.2.1 h

theorem ofRing_atZero (eager : Bool) : (ofRing eager : RecvTimeout α).AtZero eager where
  closed h hclosed := by rw [ofRing_of_nil h, Channel.recvFrom_of_closed h hclosed]
  idle h hopen := by rw [ofRing_of_nil h, Channel.recvFrom_zero_of_idle h hopen]
  waiting {c x xs} h := by
    cases eager with
    | true => exact ofRing_of_cons h (.inr rfl)
    | false => exact if_pos ⟨rfl, by simp [h], rfl⟩

end RecvTimeout

end OverwriteRing
