import MiniSiem.Lib.Pool

/-! # Programs that go through phases

A command takes a program from one phase to the next, or is not allowed in its phase.

* **Programs.**  `Obeys advance possible Q q p`: from the phase `q` on the program issues allowed commands
  only, as long as the replies are possible, and ends as `Q` has it (`obeys_call`, `Obeys.bind`).
* **Pools.**  `Phased`: the programs of a pool obey from phases that an invariant relates to the store.
  A schedule whose steps keep the invariant keeps the pool phased (`Phased.run`). -/

namespace Atomic

variable {ι Cmd Env Φ α β σ : Type} {Reply : Cmd → Type}

namespace Prog

variable {advance : Φ → Cmd → Option Φ} {possible : (c : Cmd) → Reply c → Prop}

/-- From the phase on, each command is allowed, and each possible reply leads on. -/
def Obeys (advance : Φ → Cmd → Option Φ) (possible : (c : Cmd) → Reply c → Prop) (Q : Φ → α → Prop) :
    Φ → Prog Cmd Reply α → Prop
  | q, ret a => Q q a
  | q, call c k => ∃ q', advance q c = some q' ∧ ∀ r, possible c r → (k r).Obeys advance possible Q q'

variable {Q : Φ → α → Prop} {q q' : Φ}

theorem obeys_ret {a : α} (h : Q q a) : (ret a : Prog Cmd Reply α).Obeys advance possible Q q := h

theorem obeys_call {c : Cmd} {k : Reply c → Prog Cmd Reply α} (q' : Φ) (hc : advance q c = some q')
    (hk : ∀ r, possible c r → (k r).Obeys advance possible Q q') :
    (call c k).Obeys advance possible Q q := ⟨q', hc, hk⟩

theorem Obeys.imp {P : Φ → α → Prop} (hQ : ∀ q a, Q q a → P q a) {p : Prog Cmd Reply α}
    (h : p.Obeys advance possible Q q) : p.Obeys advance possible P q := by
  induction p generalizing q with
  | ret a => exact hQ q a h
  | call c k ih =>
      obtain ⟨q', hc, hk⟩ := h
      exact ⟨q', hc, fun r hr => ih r (hk r hr)⟩

theorem Obeys.bind {P : Φ → β → Prop} {p : Prog Cmd Reply α} {f : α → Prog Cmd Reply β}
    (hp : p.Obeys advance possible Q q) (hf : ∀ q' a, Q q' a → (f a).Obeys advance possible P q') :
    (p.bind f).Obeys advance possible P q := by
  induction p generalizing q with
  | ret a => exact hf q a hp
  | call c k ih =>
      obtain ⟨q', hc, hk⟩ := hp
      exact ⟨q', hc, fun r hr => ih r (hk r hr)⟩

end Prog

namespace Pool

variable {exec : Env → (c : Cmd) → σ → Reply c × σ} {advance : Φ → Cmd → Option Φ}
  {possible : (c : Cmd) → Reply c → Prop} {Q : Φ → α → Prop} {J : (ι → Φ) → σ → Prop}
  {s : Pool ι Cmd Reply α σ}

/-- Each program obeys from its phase on, and the phases are related to the store. -/
def Phased (advance : Φ → Cmd → Option Φ) (possible : (c : Cmd) → Reply c → Prop) (Q : Φ → α → Prop)
    (J : (ι → Φ) → σ → Prop) (s : Pool ι Cmd Reply α σ) : Prop :=
  ∃ phases, (∀ i, (s.progs i).Obeys advance possible Q (phases i)) ∧ J phases s.store

variable [DecidableEq ι]

theorem Phased.step {e : ι × Env} (h : s.Phased advance possible Q J)
    (hstep : ∀ phases c q, J phases s.store → (s.progs e.1).next = some c →
      advance (phases e.1) c = some q →
      possible c (exec e.2 c s.store).1 ∧ J (Function.update phases e.1 q) (exec e.2 c s.store).2) :
    (Pool.step exec s e).Phased advance possible Q J := by
  obtain ⟨phases, hobeys, hJ⟩ := h
  cases hp : s.progs e.1 with
  | ret a =>
      rw [step_finished (by rw [hp]; rfl)]
      exact ⟨phases, hobeys, hJ⟩
  | call c k =>
      have hself := hobeys e.1
      rw [hp] at hself
      obtain ⟨q, hadvance, hk⟩ := hself
      have hnext : (s.progs e.1).next = some c := by
        rw [hp]
        rfl
      obtain ⟨hpossible, hJ'⟩ := hstep phases c q hJ hnext hadvance
      refine ⟨Function.update phases e.1 q, fun i => ?_, ?_⟩
      · by_cases hi : i = e.1
        · rw [hi, Function.update_self, step_progs_self, hp]
          exact hk _ hpossible
        · rw [Function.update_of_ne hi, step_progs_of_ne hi]
          exact hobeys i
      · rw [step_store hnext]
        exact hJ'

/-- A schedule each step of which keeps the relation between phases and store. -/
theorem Phased.run {ok : Pool ι Cmd Reply α σ → ι × Env → Prop} {es : List (ι × Env)}
    (h : s.Phased advance possible Q J) (hok : Meets exec ok es s)
    (hstep : ∀ s e, ok s e → ∀ phases c q, J phases s.store → (s.progs e.1).next = some c →
      advance (phases e.1) c = some q →
      possible c (exec e.2 c s.store).1 ∧ J (Function.update phases e.1 q) (exec e.2 c s.store).2) :
    (Pool.run exec es s).Phased advance possible Q J := by
  induction es generalizing s with
  | nil => exact h
  | cons e es ih => exact ih (h.step (hstep s e hok.1)) hok.2

end Pool

end Atomic
