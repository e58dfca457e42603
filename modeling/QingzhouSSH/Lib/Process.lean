/-
  QingzhouSSH.Lib.Process — procedures over a shared state.

  A procedure takes atomic steps on a state that others may share, and waits for
  answers from outside.  It can stop between any two steps (a crash), and any number
  of procedures may take their steps in turn.

  Main results:
    * `holds_iff` — `Holds` is what is true in every state that is reached among others,
      and at the end;
    * `triple_bind`, `triple_andThen` — the rules for a sequence, without and with errors;
    * `triple_of_guarantees` — what a procedure does not touch stays true;
    * `Among.reaches` — a procedure among calls of another one;
    * `Parallel.keeps` — parties that rely on each other;
    * `runAll_interleaved` — one after the other is an interleaving that evaluates.
-/
import Mathlib.Logic.Function.Basic
import Mathlib.Logic.Relation

namespace QingzhouSSH.Lib

/-! ## §1. Procedures. -/

/-- A procedure on states `σ` that asks questions.  An action replaces the state, and
what follows depends on the state it found. -/
inductive Process (σ : Type) {κ : Type} (Answer : κ → Type) (α : Type) where
  | done (result : α)
  | act (update : σ → σ) (next : σ → Process σ Answer α)
  | ask (question : κ) (next : Answer question → Process σ Answer α)

namespace Process

variable {σ κ : Type} {Answer : κ → Type} {α β ε : Type}

def bind : Process σ Answer α → (α → Process σ Answer β) → Process σ Answer β
  | done a, f => f a
  | act update next, f => act update fun s => (next s).bind f
  | ask question next, f => ask question fun answer => (next answer).bind f

instance : Monad (Process σ Answer) where
  pure := done
  bind := bind

theorem bind_done (p : Process σ Answer α) : p.bind done = p := by
  induction p with
  | done a => rfl
  | act update next ih => exact congrArg (act update) (funext ih)
  | ask question next ih => exact congrArg (ask question) (funext ih)

theorem bind_bind {γ : Type} (p : Process σ Answer α) (f : α → Process σ Answer β)
    (g : β → Process σ Answer γ) : (p.bind f).bind g = p.bind fun a => (f a).bind g := by
  induction p with
  | done a => rfl
  | act update next ih => exact congrArg (act update) (funext ih)
  | ask question next ih => exact congrArg (ask question) (funext ih)

instance : LawfulMonad (Process σ Answer) :=
  LawfulMonad.mk' _ bind_done (fun _ _ => rfl) bind_bind

/-- One transaction: its result and the new state. -/
def atomic (t : σ → α × σ) : Process σ Answer α := act (fun s => (t s).2) fun s => done (t s).1

/-- Look at the state. -/
def read (f : σ → α) : Process σ Answer α := act id fun s => done (f s)

/-- Ask, and go on with the answer. -/
def query (question : κ) : Process σ Answer (Answer question) := ask question done

/-- A transaction that changes nothing when it fails. -/
def update (f : σ → Except ε σ) : ExceptT ε (Process σ Answer) Unit :=
  atomic fun s =>
    match f s with
    | .ok s' => (.ok (), s')
    | .error e => (.error e, s)

/-! ## §2. Steps. -/

/-- One step of a procedure and the state it works on. -/
inductive Step : Process σ Answer α × σ → Process σ Answer α × σ → Prop where
  | act (update : σ → σ) (next : σ → Process σ Answer α) (s : σ) :
      Step (.act update next, s) (next s, update s)
  | ask (question : κ) (next : Answer question → Process σ Answer α)
      (answer : Answer question) (s : σ) : Step (.ask question next, s) (next answer, s)

/-- Any number of steps. -/
def Reaches : Process σ Answer α × σ → Process σ Answer α × σ → Prop :=
  Relation.ReflTransGen Step

/-! ## §3. Steps among others. -/

/-- A step of a procedure whose answers are admitted, or a step of the others, who
change the state as `R` says. -/
inductive StepIn (R : σ → σ → Prop) (A : (question : κ) → Answer question → Prop) :
    Process σ Answer α × σ → Process σ Answer α × σ → Prop where
  | act (update : σ → σ) (next : σ → Process σ Answer α) (s : σ) :
      StepIn R A (.act update next, s) (next s, update s)
  | ask (question : κ) (next : Answer question → Process σ Answer α)
      (answer : Answer question) (s : σ) :
      A question answer → StepIn R A (.ask question next, s) (next answer, s)
  | others (p : Process σ Answer α) (s s' : σ) : R s s' → StepIn R A (p, s) (p, s')

/-- Any number of steps among others. -/
def ReachesIn (R : σ → σ → Prop) (A : (question : κ) → Answer question → Prop) :
    Process σ Answer α × σ → Process σ Answer α × σ → Prop :=
  Relation.ReflTransGen (StepIn R A)

/-- What the others do not make false. -/
def Stable (R : σ → σ → Prop) (P : σ → Prop) : Prop := ∀ s s', R s s' → P s → P s'

theorem Stable.steps {R : σ → σ → Prop} {P : σ → Prop} (h : Stable R P) {s s' : σ}
    (hsteps : Relation.ReflTransGen R s s') (hs : P s) : P s' := by
  induction hsteps with
  | refl => exact hs
  | tail _ hstep ih => exact h _ _ hstep ih

variable {R : σ → σ → Prop} {A : (question : κ) → Answer question → Prop}

/-- `C` in every state that is reached among others, `Q` of the result and of every
state from the end on. -/
def Holds (R : σ → σ → Prop) (A : (question : κ) → Answer question → Prop) (C : σ → Prop)
    (Q : α → σ → Prop) : Process σ Answer α → σ → Prop
  | done a, s => ∀ s', Relation.ReflTransGen R s s' → C s' ∧ Q a s'
  | act update next, s =>
      ∀ s', Relation.ReflTransGen R s s' → C s' ∧ (next s').Holds R A C Q (update s')
  | ask question next, s =>
      ∀ s', Relation.ReflTransGen R s s' →
        C s' ∧ ∀ answer, A question answer → (next answer).Holds R A C Q s'

variable {C : σ → Prop} {Q Q' : α → σ → Prop}

theorem Holds.here {p : Process σ Answer α} {s : σ} (h : p.Holds R A C Q s) : C s := by
  cases p with
  | done a => exact (h s .refl).1
  | act update next => exact (h s .refl).1
  | ask question next => exact (h s .refl).1

/-- What the others do beforehand is allowed for. -/
theorem Holds.others {p : Process σ Answer α} {s s' : σ} (h : p.Holds R A C Q s)
    (hsteps : Relation.ReflTransGen R s s') : p.Holds R A C Q s' := by
  cases p with
  | done a => exact fun s'' hmore => h s'' (hsteps.trans hmore)
  | act update next => exact fun s'' hmore => h s'' (hsteps.trans hmore)
  | ask question next => exact fun s'' hmore => h s'' (hsteps.trans hmore)

theorem Holds.step {c c' : Process σ Answer α × σ} (hstep : StepIn R A c c')
    (h : c.1.Holds R A C Q c.2) : c'.1.Holds R A C Q c'.2 := by
  cases hstep with
  | act update next s => exact (h s .refl).2
  | ask question next answer s hadmitted => exact (h s .refl).2 answer hadmitted
  | others p s s' hother => exact h.others (.single hother)

theorem Holds.reaches {c c' : Process σ Answer α × σ} (hreach : ReachesIn R A c c')
    (h : c.1.Holds R A C Q c.2) : c'.1.Holds R A C Q c'.2 := by
  induction hreach with
  | refl => exact h
  | tail _ hstep ih => exact ih.step hstep

theorem ReachesIn.of_others {p : Process σ Answer α} {s s' : σ}
    (hsteps : Relation.ReflTransGen R s s') : ReachesIn R A (p, s) (p, s') := by
  induction hsteps with
  | refl => exact .refl
  | tail _ hstep ih => exact ih.tail (.others p _ _ hstep)

/-- **`Holds` says what is true wherever the procedure stops.** -/
theorem holds_iff {p : Process σ Answer α} {s : σ} :
    p.Holds R A C Q s ↔
      ∀ p' s', ReachesIn R A (p, s) (p', s') → C s' ∧ ∀ a, p' = done a → Q a s' := by
  constructor
  · intro h p' s' hreach
    have h' := h.reaches hreach
    refine ⟨h'.here, ?_⟩
    rintro a rfl
    exact (h' s' .refl).2
  · intro h
    induction p generalizing s with
    | done a =>
        intro s' hsteps
        obtain ⟨hc, hq⟩ := h _ _ (.of_others hsteps)
        exact ⟨hc, hq a rfl⟩
    | act update next ih =>
        intro s' hsteps
        refine ⟨(h _ _ (.of_others hsteps)).1, ih s' fun p'' s'' hreach => ?_⟩
        exact h p'' s'' ((ReachesIn.of_others hsteps).trans (.head (.act update next s') hreach))
    | ask question next ih =>
        intro s' hsteps
        refine ⟨(h _ _ (.of_others hsteps)).1, fun answer hadmitted =>
          ih answer fun p'' s'' hreach => ?_⟩
        exact h p'' s'' ((ReachesIn.of_others hsteps).trans
          (.head (.ask question next answer s' hadmitted) hreach))

theorem Holds.imp {p : Process σ Answer α} {s : σ} (h : p.Holds R A C Q s)
    (hq : ∀ a s', C s' → Q a s' → Q' a s') : p.Holds R A C Q' s := by
  induction p generalizing s with
  | done a =>
      intro s' hsteps
      obtain ⟨hc, hqs⟩ := h s' hsteps
      exact ⟨hc, hq a s' hc hqs⟩
  | act update next ih =>
      intro s' hsteps
      exact ⟨(h s' hsteps).1, ih s' (h s' hsteps).2⟩
  | ask question next ih =>
      intro s' hsteps
      exact ⟨(h s' hsteps).1, fun answer hadmitted =>
        ih answer ((h s' hsteps).2 answer hadmitted)⟩

/-! ## §4. Rules. -/

/-- **A sequence: what holds at the end of the first part starts the second.** -/
theorem holds_bind {p : Process σ Answer β} {f : β → Process σ Answer α} {s : σ} :
    (p >>= f).Holds R A C Q s ↔ p.Holds R A C (fun b s' => (f b).Holds R A C Q s') s := by
  show (p.bind f).Holds R A C Q s ↔ _
  induction p generalizing s with
  | done b =>
      constructor
      · intro h s' hsteps
        exact ⟨(h.others hsteps).here, h.others hsteps⟩
      · intro h
        exact (h s .refl).2
  | act update next ih =>
      exact forall_congr' fun s' => imp_congr_right fun _ => and_congr_right fun _ => ih s'
  | ask question next ih =>
      exact forall_congr' fun s' => imp_congr_right fun _ => and_congr_right fun _ =>
        forall_congr' fun answer => imp_congr_right fun _ => ih answer

variable {P : σ → Prop}

theorem holds_done (hstable : Stable R P) {s : σ} (hs : P s) {a : α}
    (h : ∀ s', P s' → C s' ∧ Q a s') : (done a : Process σ Answer α).Holds R A C Q s :=
  fun s' hsteps => h s' (hstable.steps hsteps hs)

/-- **An action, from what the others leave alone.** -/
theorem holds_act (hstable : Stable R P) {s : σ} (hs : P s) {update : σ → σ}
    {next : σ → Process σ Answer α}
    (h : ∀ s', P s' → C s' ∧ (next s').Holds R A C Q (update s')) :
    (act update next).Holds R A C Q s :=
  fun s' hsteps => h s' (hstable.steps hsteps hs)

theorem holds_ask (hstable : Stable R P) {s : σ} (hs : P s) {question : κ}
    {next : Answer question → Process σ Answer α}
    (h : ∀ s', P s' → C s' ∧ ∀ answer, A question answer → (next answer).Holds R A C Q s') :
    (ask question next).Holds R A C Q s :=
  fun s' hsteps => h s' (hstable.steps hsteps hs)

/-- **A sequence with errors: an error ends it.** -/
theorem holds_andThen {Q : Except ε α → σ → Prop} {p : ExceptT ε (Process σ Answer) β}
    {f : β → ExceptT ε (Process σ Answer) α} {s : σ} :
    Holds R A C Q ((p >>= f : ExceptT ε (Process σ Answer) α).run) s
      ↔ Holds R A C (fun r s' =>
          match r with
          | .ok b => Holds R A C Q (f b).run s'
          | .error e => (done (.error e) : Process σ Answer (Except ε α)).Holds R A C Q s')
        p.run s := by
  show ((show Process σ Answer (Except ε β) from p) >>= ExceptT.bindCont f).Holds R A C Q s ↔ _
  rw [holds_bind]
  constructor
  · intro h
    refine h.imp fun r s' _ hr => ?_
    cases r with
    | ok b => exact hr
    | error e => exact hr
  · intro h
    refine h.imp fun r s' _ hr => ?_
    cases r with
    | ok b => exact hr
    | error e => exact hr

/-! ## §5. Triples. -/

/-- What is true at a point of a procedure: the others leave it true, and it is safe. -/
structure Assertion (R : σ → σ → Prop) (C : σ → Prop) where
  holds : σ → Prop
  stable : Stable R holds
  safe : ∀ s, holds s → C s

/-- Nobody else changes the state. -/
def Undisturbed : σ → σ → Prop := fun _ _ => False

/-- What is true of a state that nobody else changes. -/
def Assertion.undisturbed (P : σ → Prop) (hsafe : ∀ s, P s → C s) :
    Assertion (Undisturbed : σ → σ → Prop) C where
  holds := P
  stable _ _ hother := hother.elim
  safe := hsafe

/-- A fact beside what is true of the state. -/
def Assertion.given (P : Assertion R C) (fact : Prop) : Assertion R C where
  holds s := fact ∧ P.holds s
  stable s s' hstep h := ⟨h.1, P.stable s s' hstep h.2⟩
  safe s h := P.safe s h.2

/-- One or the other. -/
def Assertion.or (P Q : Assertion R C) : Assertion R C where
  holds s := P.holds s ∨ Q.holds s
  stable s s' hstep h := h.imp (P.stable s s' hstep) (Q.stable s s' hstep)
  safe s h := h.elim (P.safe s) (Q.safe s)

/-- From `P` the procedure is safe all the way and ends in `Q`. -/
def Triple (A : (question : κ) → Answer question → Prop) (P : Assertion R C)
    (p : Process σ Answer α) (Q : α → Assertion R C) : Prop :=
  ∀ s, P.holds s → p.Holds R A C (fun a s' => (Q a).holds s') s

/-- What is true at the end of a procedure that can fail. -/
def outcome (Q : α → Assertion R C) (E : Assertion R C) : Except ε α → Assertion R C
  | .ok a => Q a
  | .error _ => E

variable {P P' E : Assertion R C} {Qa Qa' : α → Assertion R C} {Qb : β → Assertion R C}

theorem triple_iff {p : Process σ Answer α} :
    Triple A P p Qa ↔ ∀ s, P.holds s → ∀ p' s', ReachesIn R A (p, s) (p', s') →
      C s' ∧ ∀ a, p' = done a → (Qa a).holds s' :=
  forall_congr' fun _ => imp_congr_right fun _ => holds_iff

theorem Triple.weaken {p : Process σ Answer α} (h : Triple A P p Qa)
    (hpre : ∀ s, P'.holds s → P.holds s) (hpost : ∀ a s, (Qa a).holds s → (Qa' a).holds s) :
    Triple A P' p Qa' :=
  fun s hs => (h s (hpre s hs)).imp fun a s' _ => hpost a s'

theorem triple_given {fact : Prop} {p : Process σ Answer α} (h : fact → Triple A P p Qa) :
    Triple A (P.given fact) p Qa :=
  fun s hs => h hs.1 s hs.2

/-- A fact that follows from what is true beforehand. -/
theorem triple_of_fact {fact : Prop} {p : Process σ Answer α} (hfact : ∀ s, P.holds s → fact)
    (h : fact → Triple A P p Qa) : Triple A P p Qa :=
  fun s hs => h (hfact s hs) s hs

theorem triple_pure {a : α} (h : ∀ s, P.holds s → (Qa a).holds s) :
    Triple A P (pure a : Process σ Answer α) Qa :=
  fun _ hs => holds_done P.stable hs fun s' hs' => ⟨P.safe s' hs', h s' hs'⟩

theorem triple_bind {p : Process σ Answer β} {f : β → Process σ Answer α}
    (hp : Triple A P p Qb) (hf : ∀ b, Triple A (Qb b) (f b) Qa) : Triple A P (p >>= f) Qa := by
  intro s hs
  rw [holds_bind]
  exact (hp s hs).imp fun b s' _ hb => hf b s' hb

/-- A step that needs only what is true before it. -/
theorem triple_atomic {t : σ → α × σ} (h : ∀ s, P.holds s → (Qa (t s).1).holds (t s).2) :
    Triple A P (atomic t : Process σ Answer α) Qa := by
  intro s hs
  refine holds_act P.stable hs fun s' hs' => ⟨P.safe s' hs', ?_⟩
  have hnext := h s' hs'
  exact holds_done (Qa (t s').1).stable hnext fun s'' hs'' =>
    ⟨(Qa (t s').1).safe s'' hs'', hs''⟩

theorem triple_read {f : σ → α} (h : ∀ s, P.holds s → (Qa (f s)).holds s) :
    Triple A P (read f : Process σ Answer α) Qa := by
  intro s hs
  refine holds_act P.stable hs fun s' hs' => ⟨P.safe s' hs', ?_⟩
  exact holds_done (Qa (f s')).stable (h s' hs') fun s'' hs'' =>
    ⟨(Qa (f s')).safe s'' hs'', hs''⟩

theorem triple_query {question : κ} {Q : Answer question → Assertion R C}
    (h : ∀ answer, A question answer → ∀ s, P.holds s → (Q answer).holds s) :
    Triple A P (query question : Process σ Answer (Answer question)) Q := by
  intro s hs
  refine holds_ask P.stable hs fun s' hs' => ⟨P.safe s' hs', fun answer hadmitted => ?_⟩
  exact holds_done P.stable hs' fun s'' hs'' =>
    ⟨P.safe s'' hs'', h answer hadmitted s'' hs''⟩

section Errors

/-- Another door to leave by. -/
theorem Triple.leave {E' : Assertion R C} {p : Process σ Answer (Except ε α)}
    (h : Triple A P p (outcome Qa E)) (herror : ∀ s, E.holds s → E'.holds s) :
    Triple A P p (outcome Qa E') := by
  refine h.weaken (fun _ hs => hs) fun r s hs => ?_
  cases r with
  | ok a => exact hs
  | error e => exact herror s hs

variable {p : ExceptT ε (Process σ Answer) β} {f : β → ExceptT ε (Process σ Answer) α}

/-- **A sequence with errors: both parts leave by the same door.** -/
theorem triple_andThen (hp : Triple A P p.run (outcome Qb E))
    (hf : ∀ b, Triple A (Qb b) (f b).run (outcome Qa E)) :
    Triple A P (p >>= f : ExceptT ε (Process σ Answer) α).run (outcome Qa E) := by
  intro s hs
  rw [holds_andThen]
  refine (hp s hs).imp fun r s' _ hr => ?_
  cases r with
  | ok b => exact hf b s' hr
  | error e =>
      exact holds_done E.stable hr fun s'' hs'' => ⟨E.safe s'' hs'', hs''⟩

theorem triple_ok {a : α} (h : ∀ s, P.holds s → (Qa a).holds s) :
    Triple A P (pure a : ExceptT ε (Process σ Answer) α).run (outcome Qa E) :=
  (triple_pure h : Triple A P (pure (.ok a)) (outcome Qa E))

/-- A result that is known beforehand. -/
theorem triple_result {r : Except ε α} (hok : ∀ a, r = .ok a → ∀ s, P.holds s → (Qa a).holds s)
    (herror : ∀ e, r = .error e → ∀ s, P.holds s → E.holds s) :
    Triple A P (ExceptT.mk (pure r) : ExceptT ε (Process σ Answer) α).run (outcome Qa E) := by
  refine (triple_pure fun s hs => ?_ : Triple A P (pure r) (outcome Qa E))
  cases r with
  | ok a => exact hok a rfl s hs
  | error e => exact herror e rfl s hs

/-- A sequence that starts with a known result. -/
theorem triple_known {b : β} {Q : Except ε α → Assertion R C} (h : Triple A P (f b).run Q) :
    Triple A P (ExceptT.mk (pure (.ok b)) >>= f : ExceptT ε (Process σ Answer) α).run Q :=
  h

theorem triple_throw {e : ε} (h : ∀ s, P.holds s → E.holds s) :
    Triple A P (throw e : ExceptT ε (Process σ Answer) α).run (outcome Qa E) :=
  (triple_pure h : Triple A P (pure (.error e)) (outcome Qa E))

/-- A part that cannot fail. -/
theorem triple_lift {p : Process σ Answer α} (hp : Triple A P p Qa) :
    Triple A P (ExceptT.lift p : ExceptT ε (Process σ Answer) α).run (outcome Qa E) := by
  show Triple A P (p.bind fun a => done (.ok a)) (outcome Qa E)
  exact triple_bind hp fun a =>
    (triple_pure fun _ hs => hs : Triple A (Qa a) (pure (.ok a)) (outcome Qa E))

theorem triple_update {f : σ → Except ε σ} {Q : Assertion R C}
    (hok : ∀ s s', P.holds s → f s = .ok s' → Q.holds s')
    (herror : ∀ s e, P.holds s → f s = .error e → E.holds s) :
    Triple A P (update f : ExceptT ε (Process σ Answer) Unit).run (outcome (fun _ => Q) E) := by
  refine triple_atomic fun s hs => ?_
  cases hf : f s with
  | ok s' => exact hok s s' hs hf
  | error e => exact herror s e hs hf

end Errors

section NamedErrors

/-- What is true at the end of a procedure, with what each error says. -/
def ending (Q : α → Assertion R C) (E : ε → Assertion R C) : Except ε α → Assertion R C
  | .ok a => Q a
  | .error e => E e

variable {D : ε → Assertion R C}

/-- A sequence of parts whose errors say the same. -/
theorem triple_then {p : ExceptT ε (Process σ Answer) β} {f : β → ExceptT ε (Process σ Answer) α}
    (hp : Triple A P p.run (ending Qb D)) (hf : ∀ b, Triple A (Qb b) (f b).run (ending Qa D)) :
    Triple A P (p >>= f : ExceptT ε (Process σ Answer) α).run (ending Qa D) := by
  intro s hs
  rw [holds_andThen]
  refine (hp s hs).imp fun r s' _ hr => ?_
  cases r with
  | ok b => exact hf b s' hr
  | error e =>
      exact holds_done (D e).stable hr fun s'' hs'' => ⟨(D e).safe s'' hs'', hs''⟩

theorem triple_end {a : α} (h : ∀ s, P.holds s → (Qa a).holds s) :
    Triple A P (pure a : ExceptT ε (Process σ Answer) α).run (ending Qa D) :=
  (triple_pure h : Triple A P (pure (.ok a)) (ending Qa D))

/-- A question, and what is done with the answer. -/
theorem triple_answer {question : κ} {f : Answer question → ExceptT ε (Process σ Answer) α}
    (h : ∀ answer, A question answer → Triple A P (f answer).run (ending Qa D)) :
    Triple A P (ExceptT.lift (query question) >>= f : ExceptT ε (Process σ Answer) α).run
      (ending Qa D) := by
  intro s hs
  refine holds_ask P.stable hs fun s' hs' => ⟨P.safe s' hs', fun answer hadmitted => ?_⟩
  exact h answer hadmitted s' hs'

end NamedErrors

/-! ## §6. A run with given answers. -/

/-- Run to the end; the answer to a question may depend on how many went before. -/
def run (answer : Nat → (question : κ) → Answer question) : Nat → Process σ Answer α → σ → α × σ
  | _, .done a, s => (a, s)
  | n, .act update next, s => run answer n (next s) (update s)
  | n, .ask question next, s => run answer (n + 1) (next (answer n question)) s

theorem run_reaches (answer : Nat → (question : κ) → Answer question) (n : Nat)
    (p : Process σ Answer α) (s : σ) :
    Reaches (p, s) (done (run answer n p s).1, (run answer n p s).2) := by
  induction p generalizing n s with
  | done a => exact .refl
  | act update next ih => exact .head (.act update next s) (ih s n (update s))
  | ask question next ih =>
      exact .head (.ask question next (answer n question) s) (ih (answer n question) (n + 1) s)

theorem run_reachesIn {R : σ → σ → Prop} {A : (question : κ) → Answer question → Prop}
    {answer : Nat → (question : κ) → Answer question}
    (hadmitted : ∀ n question, A question (answer n question)) (n : Nat) (p : Process σ Answer α)
    (s : σ) :
    ReachesIn R A (p, s) (done (run answer n p s).1, (run answer n p s).2) := by
  induction p generalizing n s with
  | done a => exact .refl
  | act update next ih => exact .head (.act update next s) (ih s n (update s))
  | ask question next ih =>
      exact .head (.ask question next (answer n question) s (hadmitted n question))
        (ih (answer n question) (n + 1) s)

/-- Run to the end, and count the questions. -/
def runOn (answer : Nat → (question : κ) → Answer question) :
    Nat → Process σ Answer α → σ → Nat × α × σ
  | n, .done a, s => (n, a, s)
  | n, .act update next, s => runOn answer n (next s) (update s)
  | n, .ask question next, s => runOn answer (n + 1) (next (answer n question)) s

theorem run_eq_runOn (answer : Nat → (question : κ) → Answer question) (n : Nat)
    (p : Process σ Answer α) (s : σ) : run answer n p s = (runOn answer n p s).2 := by
  induction p generalizing n s with
  | done a => rfl
  | act update next ih => exact ih s n (update s)
  | ask question next ih => exact ih (answer n question) (n + 1) s

theorem runOn_bind (answer : Nat → (question : κ) → Answer question) (n : Nat)
    (p : Process σ Answer β) (f : β → Process σ Answer α) (s : σ) :
    runOn answer n (p.bind f) s
      = runOn answer (runOn answer n p s).1 (f (runOn answer n p s).2.1) (runOn answer n p s).2.2 := by
  induction p generalizing n s with
  | done a => rfl
  | act update next ih => exact ih s n (update s)
  | ask question next ih => exact ih (answer n question) (n + 1) s

/-- A sequence goes on with what its first part returns. -/
theorem runOn_then {answer : Nat → (question : κ) → Answer question} {n n' : Nat}
    {p : ExceptT ε (Process σ Answer) β} {f : β → ExceptT ε (Process σ Answer) α} {s s' : σ} {b : β}
    (h : runOn answer n p.run s = (n', .ok b, s')) :
    runOn answer n (p >>= f).run s = runOn answer n' (f b).run s' := by
  show runOn answer n (p.run.bind (ExceptT.bindCont f)) s = _
  rw [runOn_bind, h]
  rfl

/-- Where the first part of a sequence fails, it fails. -/
theorem runOn_error {answer : Nat → (question : κ) → Answer question} {n n' : Nat}
    {p : ExceptT ε (Process σ Answer) β} {f : β → ExceptT ε (Process σ Answer) α} {s s' : σ} {e : ε}
    (h : runOn answer n p.run s = (n', .error e, s')) :
    runOn answer n (p >>= f).run s = (n', .error e, s') := by
  show runOn answer n (p.run.bind (ExceptT.bindCont f)) s = _
  rw [runOn_bind, h]
  rfl

theorem runOn_atomic (answer : Nat → (question : κ) → Answer question) (n : Nat) (t : σ → α × σ)
    (s : σ) : runOn answer n (atomic t) s = (n, (t s).1, (t s).2) := rfl

/-- A transaction that goes through. -/
theorem runOn_update {answer : Nat → (question : κ) → Answer question} {n : Nat}
    {f : σ → Except ε σ} {s s' : σ} (h : f s = .ok s') :
    runOn answer n (update f).run s = (n, .ok (), s') := by
  unfold update
  refine (runOn_atomic answer n _ s).trans ?_
  rw [h]

/-- A procedure on a part of the state. -/
def within {τ : Type} (get : σ → τ) (set : τ → σ → σ) : Process τ Answer α → Process σ Answer α
  | .done a => .done a
  | .act update next => .act (fun s => set (update (get s)) s) fun s => within get set (next (get s))
  | .ask question next => .ask question fun answer => within get set (next answer)

theorem runOn_within {τ : Type} {get : σ → τ} {set : τ → σ → σ}
    (hget : ∀ t s, get (set t s) = t) (hset : ∀ t t' s, set t (set t' s) = set t s)
    (hsame : ∀ s, set (get s) s = s) (answer : Nat → (question : κ) → Answer question) (n : Nat)
    (p : Process τ Answer α) (s : σ) :
    runOn answer n (p.within get set) s
      = ((runOn answer n p (get s)).1, (runOn answer n p (get s)).2.1,
          set (runOn answer n p (get s)).2.2 s) := by
  induction p generalizing n s with
  | done a => exact congrArg (fun s => (n, a, s)) (hsame s).symm
  | act update next ih =>
      show runOn answer n ((next (get s)).within get set) (set (update (get s)) s) = _
      rw [ih, hget, hset]
      rfl
  | ask question next ih => exact ih (answer n question) (n + 1) s

/-- **A run with admitted answers ends as a triple says.** -/
theorem Triple.runOn {C : σ → Prop} {P : Assertion R C} {Q : α → Assertion R C}
    {p : Process σ Answer α} (h : Triple A P p Q)
    (answer : Nat → (question : κ) → Answer question)
    (hadmitted : ∀ n question, A question (answer n question)) (n : Nat) {s : σ} (hs : P.holds s) :
    (Q (Process.runOn answer n p s).2.1).holds (Process.runOn answer n p s).2.2 := by
  rw [← run_eq_runOn]
  exact (triple_iff.mp h s hs _ _ (run_reachesIn hadmitted n p s)).2 _ rfl

/-! ## §7. Guarantees. -/

/-- Every action of the procedure changes the state as `G` says. -/
def Guarantees (G : σ → σ → Prop) : Process σ Answer α → Prop
  | done _ => True
  | act update next => (∀ s, G s (update s)) ∧ ∀ s, (next s).Guarantees G
  | ask _ next => ∀ answer, (next answer).Guarantees G

theorem Guarantees.mono {G G' : σ → σ → Prop} {p : Process σ Answer α} (h : p.Guarantees G)
    (himp : ∀ s s', G s s' → G' s s') : p.Guarantees G' := by
  induction p with
  | done a => trivial
  | act update next ih => exact ⟨fun s => himp s _ (h.1 s), fun s => ih s (h.2 s)⟩
  | ask question next ih => exact fun answer => ih answer (h answer)

theorem guarantees_bind {G : σ → σ → Prop} {p : Process σ Answer β}
    {f : β → Process σ Answer α} (hp : p.Guarantees G) (hf : ∀ b, (f b).Guarantees G) :
    (p >>= f).Guarantees G := by
  show (p.bind f).Guarantees G
  induction p with
  | done b => exact hf b
  | act update next ih => exact ⟨hp.1, fun s => ih s (hp.2 s)⟩
  | ask question next ih => exact fun answer => ih answer (hp answer)

theorem Guarantees.step {G : σ → σ → Prop} {p p' : Process σ Answer α} {s s' : σ}
    (hstep : Step (p, s) (p', s')) (h : p.Guarantees G) :
    p'.Guarantees G ∧ (s' = s ∨ G s s') := by
  cases hstep with
  | act update next => exact ⟨h.2 s, Or.inr (h.1 s)⟩
  | ask question next answer => exact ⟨h answer, Or.inl rfl⟩

/-- Every result of the procedure is as `Q` says, whatever it finds and is answered. -/
def Yields (Q : α → Prop) : Process σ Answer α → Prop
  | done a => Q a
  | act _ next => ∀ s, (next s).Yields Q
  | ask _ next => ∀ answer, (next answer).Yields Q

theorem yields_any (p : Process σ Answer α) : p.Yields fun _ => True := by
  induction p with
  | done a => trivial
  | act update next ih => exact ih
  | ask question next ih => exact ih

theorem yields_bind {Q : α → Prop} {Q' : β → Prop} {p : Process σ Answer β}
    {f : β → Process σ Answer α} (hp : p.Yields Q') (hf : ∀ b, Q' b → (f b).Yields Q) :
    (p >>= f).Yields Q := by
  show (p.bind f).Yields Q
  induction p with
  | done b => exact hf b hp
  | act update next ih => exact fun s => ih s (hp s)
  | ask question next ih => exact fun answer => ih answer (hp answer)

theorem guarantees_andThen {G : σ → σ → Prop} {p : ExceptT ε (Process σ Answer) β}
    {f : β → ExceptT ε (Process σ Answer) α} (hp : Guarantees G p.run)
    (hf : ∀ b, Guarantees G (f b).run) :
    Guarantees G (p >>= f : ExceptT ε (Process σ Answer) α).run := by
  show Guarantees G ((show Process σ Answer (Except ε β) from p) >>= ExceptT.bindCont f)
  refine guarantees_bind hp fun r => ?_
  cases r with
  | ok b => exact hf b
  | error e => trivial

theorem guarantees_lift {G : σ → σ → Prop} {p : Process σ Answer α} (hp : p.Guarantees G) :
    Guarantees G (ExceptT.lift p : ExceptT ε (Process σ Answer) α).run :=
  guarantees_bind hp fun _ => trivial

theorem guarantees_atomic {G : σ → σ → Prop} {t : σ → α × σ} (h : ∀ s, G s (t s).2) :
    (atomic t : Process σ Answer α).Guarantees G :=
  ⟨h, fun _ => trivial⟩

theorem guarantees_update {G : σ → σ → Prop} {f : σ → Except ε σ} (hrefl : ∀ s, G s s)
    (h : ∀ s s', f s = .ok s' → G s s') :
    Guarantees G (update f : ExceptT ε (Process σ Answer) Unit).run := by
  refine guarantees_atomic fun s => ?_
  cases hf : f s with
  | ok s' => exact h s s' hf
  | error e => exact hrefl s

/-- Every result is as `Q` says, if the answers are admitted. -/
def YieldsIn (A : (question : κ) → Answer question → Prop) (Q : α → Prop) :
    Process σ Answer α → Prop
  | done a => Q a
  | act _ next => ∀ s, (next s).YieldsIn A Q
  | ask question next => ∀ answer, A question answer → (next answer).YieldsIn A Q

theorem yieldsIn_any (p : Process σ Answer α) : p.YieldsIn A fun _ => True := by
  induction p with
  | done a => trivial
  | act update next ih => exact ih
  | ask question next ih => exact fun answer _ => ih answer

theorem Yields.admitted {Q : α → Prop} {p : Process σ Answer α} (h : p.Yields Q) :
    p.YieldsIn A Q := by
  induction p with
  | done a => exact h
  | act update next ih => exact fun s => ih s (h s)
  | ask question next ih => exact fun answer _ => ih answer (h answer)

theorem yieldsIn_bind {Q : α → Prop} {Q' : β → Prop} {p : Process σ Answer β}
    {f : β → Process σ Answer α} (hp : p.YieldsIn A Q') (hf : ∀ b, Q' b → (f b).YieldsIn A Q) :
    (p >>= f).YieldsIn A Q := by
  show (p.bind f).YieldsIn A Q
  induction p with
  | done b => exact hf b hp
  | act update next ih => exact fun s => ih s (hp s)
  | ask question next ih => exact fun answer hadmitted => ih answer (hp answer hadmitted)

/-- What a procedure does not touch stays true, and its result is as expected. -/
theorem triple_of_yieldsIn {G : σ → σ → Prop} {Q : α → Prop} {p : Process σ Answer α}
    (hp : p.Guarantees G) (hq : p.YieldsIn A Q)
    (hkeep : ∀ s s', G s s' → P.holds s → P.holds s') :
    Triple A P p fun a => P.given (Q a) := by
  intro s hs
  induction p generalizing s with
  | done a => exact holds_done P.stable hs fun s' hs' => ⟨P.safe s' hs', hq, hs'⟩
  | act update next ih =>
      refine holds_act P.stable hs fun s' hs' => ⟨P.safe s' hs', ?_⟩
      exact ih s' (hp.2 s') (hq s') (update s') (hkeep s' _ (hp.1 s') hs')
  | ask question next ih =>
      refine holds_ask P.stable hs fun s' hs' => ⟨P.safe s' hs', fun answer hadmitted => ?_⟩
      exact ih answer (hp answer) (hq answer hadmitted) s' hs'

/-- **What a procedure does not touch stays true.** -/
theorem triple_of_guarantees {G : σ → σ → Prop} {Q : α → Prop} {p : Process σ Answer α}
    (hp : p.Guarantees G) (hq : p.Yields Q)
    (hkeep : ∀ s s', G s s' → P.holds s → P.holds s') :
    Triple A P p fun a => P.given (Q a) :=
  triple_of_yieldsIn hp hq.admitted hkeep

/-- Also where it can fail. -/
theorem triple_of_silent {G : σ → σ → Prop} {p : ExceptT ε (Process σ Answer) α}
    (hp : Guarantees G p.run) (hkeep : ∀ s s', G s s' → P.holds s → P.holds s')
    (herror : ∀ s, P.holds s → E.holds s) : Triple A P p.run (outcome (fun _ => P) E) := by
  refine (triple_of_guarantees hp (yields_any _) hkeep).weaken (fun _ hs => hs) fun r s hs => ?_
  cases r with
  | ok a => exact hs.2
  | error e => exact herror s hs.2

/-! ## §8. Interleavings. -/

/-- One of several procedures takes a step. -/
inductive Interleaved :
    List (Process σ Answer α) × σ → List (Process σ Answer α) × σ → Prop where
  | step {p p' : Process σ Answer α} {s s' : σ} (before after : List (Process σ Answer α)) :
      Step (p, s) (p', s') → Interleaved (before ++ p :: after, s) (before ++ p' :: after, s')

theorem ReachesIn.of_reaches {R : σ → σ → Prop} {c c' : Process σ Answer α × σ}
    (h : Reaches c c') : ReachesIn R (fun _ _ => True) c c' := by
  induction h with
  | refl => exact .refl
  | tail _ hstep ih =>
      cases hstep with
      | act update next s => exact ih.tail (.act update next s)
      | ask question next answer s => exact ih.tail (.ask question next answer s trivial)

theorem Interleaved.of_reaches {p p' : Process σ Answer α} {s s' : σ}
    (before after : List (Process σ Answer α)) (h : Reaches (p, s) (p', s')) :
    Relation.ReflTransGen Interleaved (before ++ p :: after, s) (before ++ p' :: after, s') := by
  -- on the way the procedure and the state are the two parts of a pair
  suffices hpair : ∀ c c' : Process σ Answer α × σ, Reaches c c' →
      Relation.ReflTransGen Interleaved (before ++ c.1 :: after, c.2)
        (before ++ c'.1 :: after, c'.2) from hpair _ _ h
  intro c c' hreach
  induction hreach with
  | refl => exact .refl
  | tail _ hstep ih => exact ih.tail (.step before after hstep)

/-- A procedure and calls of another one, of which any number may be made at any time. -/
inductive Among (call : Process σ Answer β) :
    Process σ Answer α × List (Process σ Answer β) × σ →
      Process σ Answer α × List (Process σ Answer β) × σ → Prop where
  | own {p p' : Process σ Answer α} {s s' : σ} (calls : List (Process σ Answer β)) :
      Step (p, s) (p', s') → Among call (p, calls, s) (p', calls, s')
  | called {c c' : Process σ Answer β} {s s' : σ} (p : Process σ Answer α)
      (before after : List (Process σ Answer β)) :
      Step (c, s) (c', s') → Among call (p, before ++ c :: after, s) (p, before ++ c' :: after, s')
  | another (p : Process σ Answer α) (calls : List (Process σ Answer β)) (s : σ) :
      Among call (p, calls, s) (p, call :: calls, s)

/-- **The procedure sees the calls as others do**, if all that a call does is what others
may do. -/
theorem Among.reaches {call : Process σ Answer β} {R G : σ → σ → Prop}
    {Part : Process σ Answer β → σ → Prop} (hcall : ∀ s, Part call s)
    (hstep : ∀ c c' s s', Part c s → Step (c, s) (c', s') → Part c' s' ∧ (s' = s ∨ R s s'))
    (hothers : ∀ c s s', Part c s → R s s' → Part c s')
    (hown : ∀ c s s', Part c s → G s s' → Part c s')
    {p p' : Process σ Answer α} {calls : List (Process σ Answer β)} {s s' : σ}
    (hp : p.Guarantees G)
    (h : Relation.ReflTransGen (Among call) (p, [], s) (p', calls, s')) :
    ReachesIn R (fun _ _ => True) (p, s) (p', s') := by
  -- with it, every call is at one of its places, and the procedure keeps its guarantee
  suffices hall : ∀ c c', Relation.ReflTransGen (Among call) c c' → c.1.Guarantees G →
      (∀ part ∈ c.2.1, Part part c.2.2) →
      c'.1.Guarantees G ∧ (∀ part ∈ c'.2.1, Part part c'.2.2)
        ∧ ReachesIn R (fun _ _ => True) (c.1, c.2.2) (c'.1, c'.2.2) from
    (hall _ _ h hp (by simp)).2.2
  intro c c' hsteps hguarantees hparts
  induction hsteps with
  | refl => exact ⟨hguarantees, hparts, .refl⟩
  | tail _ hlast ih =>
      obtain ⟨hguarantees, hparts, hreach⟩ := ih
      cases hlast with
      | own calls hone =>
          obtain ⟨hnext, hchange⟩ := hguarantees.step hone
          refine ⟨hnext, fun part hpart => ?_, hreach.trans (ReachesIn.of_reaches (.single hone))⟩
          rcases hchange with hsame | hchange
          · exact hsame ▸ hparts part hpart
          · exact hown part _ _ (hparts part hpart) hchange
      | called p before after hone =>
          obtain ⟨hpart', hchange⟩ := hstep _ _ _ _ (hparts _ (by simp)) hone
          refine ⟨hguarantees, fun part hpart => ?_, ?_⟩
          · have hother : ∀ other ∈ before ++ after, Part other _ := fun other hmem => by
              have hbefore := hparts other (by
                rcases List.mem_append.mp hmem with hmem | hmem <;> simp [hmem])
              rcases hchange with hsame | hchange
              · exact hsame ▸ hbefore
              · exact hothers other _ _ hbefore hchange
            rcases List.mem_append.mp hpart with hmem | hmem
            · exact hother part (List.mem_append_left _ hmem)
            · rcases List.mem_cons.mp hmem with rfl | hmem
              · exact hpart'
              · exact hother part (List.mem_append_right _ hmem)
          · rcases hchange with hsame | hchange
            · exact hsame ▸ hreach
            · exact hreach.tail (.others _ _ _ hchange)
      | another p calls s =>
          refine ⟨hguarantees, fun part hpart => ?_, hreach⟩
          rcases List.mem_cons.mp hpart with rfl | hpart
          · exact hcall s
          · exact hparts part hpart

theorem Among.of_reaches {call : Process σ Answer β} (calls : List (Process σ Answer β))
    {p p' : Process σ Answer α} {s s' : σ} (h : Reaches (p, s) (p', s')) :
    Relation.ReflTransGen (Among call) (p, calls, s) (p', calls, s') := by
  suffices hpair : ∀ c c' : Process σ Answer α × σ, Reaches c c' →
      Relation.ReflTransGen (Among call) (c.1, calls, c.2) (c'.1, calls, c'.2) from hpair _ _ h
  intro c c' hreach
  induction hreach with
  | refl => exact .refl
  | tail _ hstep ih => exact ih.tail (.own calls hstep)

/-- A whole call at once. -/
theorem Among.of_call {call c' : Process σ Answer β} (p : Process σ Answer α) {s s' : σ}
    (h : Reaches (call, s) (c', s')) :
    Relation.ReflTransGen (Among call) (p, [], s) (p, [c'], s') := by
  suffices hpair : ∀ c c' : Process σ Answer β × σ, Reaches c c' →
      Relation.ReflTransGen (Among call) (p, [c.1], c.2) (p, [c'.1], c'.2) from
    .head (.another p [] s) (hpair _ _ h)
  intro c c' hreach
  induction hreach with
  | refl => exact .refl
  | tail _ hstep ih => exact ih.tail (.called p [] [] hstep)

/-- The first steps of a run with given answers. -/
def runSteps (answer : (question : κ) → Answer question) :
    Nat → Process σ Answer α → σ → Process σ Answer α × σ
  | 0, p, s => (p, s)
  | _ + 1, done a, s => (done a, s)
  | n + 1, act update next, s => runSteps answer n (next s) (update s)
  | n + 1, ask question next, s => runSteps answer n (next (answer question)) s

theorem runSteps_reaches (answer : (question : κ) → Answer question) (n : Nat)
    (p : Process σ Answer α) (s : σ) : Reaches (p, s) (runSteps answer n p s) := by
  induction n generalizing p s with
  | zero => exact .refl
  | succ n ih =>
      cases p with
      | done a => exact .refl
      | act update next => exact .head (.act update next s) (ih (next s) (update s))
      | ask question next =>
          exact .head (.ask question next (answer question) s) (ih (next (answer question)) s)

/-- Run procedures to their ends, one after the other. -/
def runAll (answer : Nat → (question : κ) → Answer question) :
    List (Process σ Answer α) → σ → List α × σ
  | [], s => ([], s)
  | p :: rest, s =>
      let first := run answer 0 p s
      let others := runAll answer rest first.2
      (first.1 :: others.1, others.2)

/-- One after the other is one of the interleavings. -/
theorem runAll_interleaved (answer : Nat → (question : κ) → Answer question)
    (before ps : List (Process σ Answer α)) (s : σ) :
    Relation.ReflTransGen Interleaved (before ++ ps, s)
      (before ++ (runAll answer ps s).1.map done, (runAll answer ps s).2) := by
  induction ps generalizing before s with
  | nil => exact .refl
  | cons p rest ih =>
      have hfirst := Interleaved.of_reaches before rest (run_reaches answer 0 p s)
      have hothers := ih (before ++ [done (run answer 0 p s).1]) (run answer 0 p s).2
      rw [List.append_assoc, List.append_assoc] at hothers
      exact hfirst.trans hothers

/-! ## §9. Named parties. -/

section Parties

variable {ι : Type} [DecidableEq ι]

/-- One of the parties takes a step. -/
inductive Parallel :
    (ι → Process σ Answer α) × σ → (ι → Process σ Answer α) × σ → Prop where
  | step {p' : Process σ Answer α} {s s' : σ} (parties : ι → Process σ Answer α) (i : ι) :
      Step (parties i, s) (p', s') → Parallel (parties, s) (Function.update parties i p', s')

theorem Holds.relies {p p' : Process σ Answer α} {s s' : σ} (hstep : Step (p, s) (p', s'))
    (h : p.Holds R (fun _ _ => True) C Q s) : p'.Holds R (fun _ _ => True) C Q s' := by
  cases hstep with
  | act update next => exact (h s .refl).2
  | ask question next answer => exact (h s .refl).2 answer trivial

/-- **Parties that rely on each other for what each of them guarantees.**  What a party
guarantees of its steps may depend on what it keeps safe. -/
theorem Parallel.keeps {R G : ι → σ → σ → Prop} {C : ι → σ → Prop} {Q : ι → α → σ → Prop}
    (hothers : ∀ i j s s', i ≠ j → G i s s' → C i s' → R j s s')
    {parties parties' : ι → Process σ Answer α} {s s' : σ}
    (hguarantees : ∀ i, (parties i).Guarantees (G i))
    (hholds : ∀ i, (parties i).Holds (R i) (fun _ _ => True) (C i) (Q i) s)
    (hrun : Relation.ReflTransGen Parallel (parties, s) (parties', s')) :
    (∀ i, (parties' i).Guarantees (G i))
      ∧ ∀ i, (parties' i).Holds (R i) (fun _ _ => True) (C i) (Q i) s' := by
  suffices hall : ∀ c c' : (ι → Process σ Answer α) × σ, Relation.ReflTransGen Parallel c c' →
      (∀ i, (c.1 i).Guarantees (G i)) →
      (∀ i, (c.1 i).Holds (R i) (fun _ _ => True) (C i) (Q i) c.2) →
      (∀ i, (c'.1 i).Guarantees (G i))
        ∧ ∀ i, (c'.1 i).Holds (R i) (fun _ _ => True) (C i) (Q i) c'.2 from
    hall _ _ hrun hguarantees hholds
  intro c c' hsteps hg hh
  induction hsteps with
  | refl => exact ⟨hg, hh⟩
  | tail _ hlast ih =>
      obtain ⟨hg, hh⟩ := ih
      cases hlast with
      | step parties i hone =>
          obtain ⟨hnext, hchange⟩ := (hg i).step hone
          have hsafe := (hh i).relies hone
          refine ⟨fun j => ?_, fun j => ?_⟩
          · by_cases hij : j = i
            · subst hij
              dsimp only
              rw [Function.update_self]
              exact hnext
            · dsimp only
              rw [Function.update_of_ne hij]
              exact hg j
          · by_cases hij : j = i
            · subst hij
              dsimp only
              rw [Function.update_self]
              exact hsafe
            · dsimp only
              rw [Function.update_of_ne hij]
              rcases hchange with hsame | hchange
              · exact hsame ▸ hh j
              · exact (hh j).others
                  (.single (hothers i j _ _ (fun heq => hij heq.symm) hchange hsafe.here))

/-- One party by itself. -/
theorem Parallel.of_reaches (parties : ι → Process σ Answer α) (i : ι)
    {p' : Process σ Answer α} {s s' : σ} (h : Reaches (parties i, s) (p', s')) :
    Relation.ReflTransGen Parallel (parties, s) (Function.update parties i p', s') := by
  suffices hpair : ∀ c c' : Process σ Answer α × σ, Reaches c c' →
      Relation.ReflTransGen Parallel (Function.update parties i c.1, c.2)
        (Function.update parties i c'.1, c'.2) by
    have hrun := hpair _ _ h
    dsimp only at hrun
    rw [Function.update_eq_self] at hrun
    exact hrun
  intro c c' hreach
  induction hreach with
  | refl => exact .refl
  | @tail b c _ hstep ih =>
      refine ih.tail ?_
      have hone := Parallel.step (Function.update parties i b.1) i
        (by rw [Function.update_self]; exact hstep)
      rw [Function.update_idem] at hone
      exact hone

/-- Parties take turns: who, how many steps, and with which answers. -/
def takeTurns : List (ι × Nat × ((question : κ) → Answer question)) →
    (ι → Process σ Answer α) × σ → (ι → Process σ Answer α) × σ
  | [], c => c
  | (i, steps, answer) :: rest, c =>
      let reached := runSteps answer steps (c.1 i) c.2
      takeTurns rest (Function.update c.1 i reached.1, reached.2)

theorem takeTurns_parallel (turns : List (ι × Nat × ((question : κ) → Answer question)))
    (c : (ι → Process σ Answer α) × σ) : Relation.ReflTransGen Parallel c (takeTurns turns c) := by
  induction turns generalizing c with
  | nil => exact .refl
  | cons turn rest ih =>
      obtain ⟨i, steps, answer⟩ := turn
      exact (Parallel.of_reaches c.1 i (runSteps_reaches answer steps (c.1 i) c.2)).trans (ih _)

end Parties

end Process

end QingzhouSSH.Lib
