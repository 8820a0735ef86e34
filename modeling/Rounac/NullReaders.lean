import Rounac.ReaderlessNetworks

/-!
# Readers on a null network

"If the network type is null then every read will error": but a null reader cannot be made, since
its ring is asked for with capacity zero. So the runs in which nothing panics and every reader errs
are exactly those that create none (`null_readers_err_iff`).
-/

namespace Rounac

open StepSystem

variable {Val : Type}

/-- Whatever the clock shows, the polling calls return an error now; so does `read_timeout` if it
has any time, and no more than the clock has. -/
structure AsbReader.Errs (latest : Instant) (r : AsbReader) (asb : NetAsb Val) : Prop where
  read : ∀ clock, ∃ e, (r.read (r.script asb clock [])).1 = .err e
  tryRead : ∀ clock, ∃ e, (r.tryRead (r.script asb clock [.nothing])).1 = .err e
  readTimeout : ∀ timeout start clock, timeout ≠ 0 → start + timeout ≤ latest →
    ∃ e, (r.readTimeout timeout start (r.script asb clock [.nothing])).1 = .err e

namespace AsbConnection

variable {qx : QuickXml Val} {config : AsbConfig} {svcName : String}

variable (qx config svcName) in
def NoPanic (c : AsbConnection Val) (op : Op Val) : Prop :=
  ∀ res c', c.exec qx config svcName op = some (res, c') → res ≠ .panicked

def ReadersErr (latest : Instant) (c : AsbConnection Val) : Prop :=
  ∀ r ∈ c.readers, r.Errs latest c.asb

theorem noPanic_iff_of_idle {c : AsbConnection Val} {op : Op Val} (h : c.Idle) :
    c.NoPanic qx config svcName op ↔ c.CreatesNoReader config svcName op := by
  constructor
  · intro hno T cfg hcall
    obtain ⟨c', hpan⟩ := (panics_iff_of_idle h).2 ⟨T, cfg, hcall⟩
    exact hno _ c' hpan rfl
  · rintro hno res c' hexec rfl
    obtain ⟨T, cfg, hcall⟩ := (panics_iff_of_idle h).1 ⟨c', hexec⟩
    exact hno T cfg hcall

/-- **On a null network nothing panics and the readers err in exactly the runs that create no
reader**, as no run ever has one. -/
theorem null_readers_err_iff (latest : Instant) (exchange : Option String) (ops : List (Op Val)) :
    EachStep (step qx config svcName) (NoPanic qx config svcName) (connected .null exchange) ops ∧
        Always (step qx config svcName) (ReadersErr latest) (connected .null exchange) ops ↔
      EachStep (step qx config svcName) (CreatesNoReader config svcName)
        (connected .null exchange) ops := by
  have hstart : (connected .null exchange : AsbConnection Val).Idle :=
    idle_connected (.inr rfl) exchange
  have hidle : Always (step qx config svcName) Idle (connected .null exchange) ops :=
    .of_step (fun _ _ _ h hs => h.step hs) ops hstart
  have hnone : Always (step qx config svcName) (ReadersErr latest) (connected .null exchange) ops :=
    hidle.mono fun c h r hr => absurd (h.noReader ▸ hr) List.not_mem_nil
  rw [and_iff_left hnone]
  exact EachStep.iff_of_inv Idle (fun _ _ _ h _ => noPanic_iff_of_idle h)
    (fun _ _ _ h _ hs => h.step hs) ops hstart

/-- The creation of a reader on a new connection to a null network panics. -/
theorem null_creation_panics :
    ∃ c' : AsbConnection Unit,
      (connected .null none).exec .unit (.withBusTopics "svc" []) "svc"
        (.createReader ⟨0⟩ "t" .accepting 1) = some (.panicked, c') :=
  ⟨_, rfl⟩

end AsbConnection

end Rounac
