/-
  QingzhouSSH.Lib.Rely — procedures that rely on each other.

  A procedure among others relies on what their steps are like, and guarantees what its own
  are like.  Unlike a guarantee of all its actions on all states, this one is about the states
  in which the actions are taken.

  Main results:
    * `behaves_bind`, `behaves_then` — the rules for a sequence, without and with errors;
    * `Parallel.behave` — parties whose guarantees are what the others rely on;
    * `embed_then` — a procedure on a part of a larger state.
-/
import QingzhouSSH.Lib.Process

namespace QingzhouSSH.Lib.Process

variable {σ κ : Type} {Answer : κ → Type} {α β ε : Type}

/-! ## §1. What a procedure guarantees. -/

/-- Among others, whose steps are as `R` says: every step is as `G` says, every question is
asked where `K` holds, and `Q` holds from the end on. -/
def Behaves (R G : σ → σ → Prop) (K : κ → σ → Prop) (Q : α → σ → Prop) :
    Process σ Answer α → σ → Prop
  | done a, s => ∀ s', Relation.ReflTransGen R s s' → Q a s'
  | act update next, s =>
      ∀ s', Relation.ReflTransGen R s s' →
        G s' (update s') ∧ (next s').Behaves R G K Q (update s')
  | ask question next, s =>
      ∀ s', Relation.ReflTransGen R s s' →
        K question s' ∧ ∀ answer, (next answer).Behaves R G K Q s'

variable {R G : σ → σ → Prop} {K : κ → σ → Prop} {Q Q' : α → σ → Prop}

theorem Behaves.others {p : Process σ Answer α} {s s' : σ} (h : p.Behaves R G K Q s)
    (hsteps : Relation.ReflTransGen R s s') : p.Behaves R G K Q s' := by
  cases p with
  | done a => exact fun s'' hmore => h s'' (hsteps.trans hmore)
  | act update next => exact fun s'' hmore => h s'' (hsteps.trans hmore)
  | ask question next => exact fun s'' hmore => h s'' (hsteps.trans hmore)

/-- What is asked now is asked where it may be. -/
theorem Behaves.asking {question : κ} {next : Answer question → Process σ Answer α} {s : σ}
    (h : (ask question next).Behaves R G K Q s) : K question s := (h s .refl).1

/-- **A step keeps to the guarantee.** -/
theorem Behaves.step {p p' : Process σ Answer α} {s s' : σ} (hstep : Step (p, s) (p', s'))
    (h : p.Behaves R G K Q s) : (s' = s ∨ G s s') ∧ p'.Behaves R G K Q s' := by
  cases hstep with
  | act update next => exact ⟨Or.inr (h s .refl).1, (h s .refl).2⟩
  | ask question next answer => exact ⟨Or.inl rfl, (h s .refl).2 answer⟩

theorem Behaves.imp {p : Process σ Answer α} {s : σ} (h : p.Behaves R G K Q s)
    (hq : ∀ a s', Q a s' → Q' a s') : p.Behaves R G K Q' s := by
  induction p generalizing s with
  | done a => exact fun s' hsteps => hq a s' (h s' hsteps)
  | act update next ih =>
      intro s' hsteps
      exact ⟨(h s' hsteps).1, ih s' (h s' hsteps).2⟩
  | ask question next ih =>
      intro s' hsteps
      exact ⟨(h s' hsteps).1, fun answer => ih answer ((h s' hsteps).2 answer)⟩

/-! ## §2. Rules. -/

/-- **A sequence: what holds at the end of the first part starts the second.** -/
theorem behaves_bind {p : Process σ Answer β} {f : β → Process σ Answer α} {s : σ}
    (h : p.Behaves R G K (fun b s' => (f b).Behaves R G K Q s') s) :
    (p >>= f).Behaves R G K Q s := by
  show (p.bind f).Behaves R G K Q s
  induction p generalizing s with
  | done b => exact h s .refl
  | act update next ih =>
      intro s' hsteps
      exact ⟨(h s' hsteps).1, ih s' (h s' hsteps).2⟩
  | ask question next ih =>
      intro s' hsteps
      exact ⟨(h s' hsteps).1, fun answer => ih answer ((h s' hsteps).2 answer)⟩

/-- A transaction, from what the others leave alone. -/
theorem behaves_atomic {P : σ → Prop} (hstable : Stable R P) (hend : ∀ a, Stable R (Q a)) {s : σ}
    (hs : P s) {t : σ → α × σ} (h : ∀ s', P s' → G s' (t s').2 ∧ Q (t s').1 (t s').2) :
    (atomic t : Process σ Answer α).Behaves R G K Q s := by
  intro s' hsteps
  have hs' := h s' (hstable.steps hsteps hs)
  exact ⟨hs'.1, fun s'' hmore => (hend _).steps hmore hs'.2⟩

/-- `Q` of a result; of an error nothing is said. -/
def Unless (Q : α → σ → Prop) : Except ε α → σ → Prop
  | .ok a, s => Q a s
  | .error _, _ => True

theorem behaves_error {e : ε} {s : σ} :
    (done (.error e) : Process σ Answer (Except ε α)).Behaves R G K (Unless Q) s :=
  fun _ _ => trivial

theorem behaves_ok {P : σ → Prop} (hstable : Stable R P) {s : σ} (hs : P s) {a : α} :
    (done (.ok a) : Process σ Answer (Except ε α)).Behaves R G K (Unless fun _ s' => P s') s :=
  fun _ hsteps => hstable.steps hsteps hs

/-- An answer from outside, where there are errors. -/
theorem behaves_lift {P : σ → Prop} (hstable : Stable R P) {s : σ} (hs : P s) {question : κ}
    (h : ∀ s', P s' → K question s') :
    Behaves R G K (Unless fun _ s' => P s')
      (ExceptT.lift (query question) : ExceptT ε (Process σ Answer) (Answer question)).run s := by
  intro s' hsteps
  have hs' := hstable.steps hsteps hs
  exact ⟨h s' hs', fun _ s'' hmore => hstable.steps hmore hs'⟩

/-- **A sequence with errors: an error ends it.** -/
theorem behaves_then {P : β → σ → Prop} {p : ExceptT ε (Process σ Answer) β}
    {f : β → ExceptT ε (Process σ Answer) α} {s : σ}
    (hp : Behaves R G K (Unless P) p.run s)
    (hf : ∀ b s', P b s' → Behaves R G K (Unless Q) (f b).run s') :
    Behaves R G K (Unless Q) ((p >>= f : ExceptT ε (Process σ Answer) α).run) s := by
  show ((show Process σ Answer (Except ε β) from p) >>= ExceptT.bindCont f).Behaves R G K
    (Unless Q) s
  refine behaves_bind (Behaves.imp hp fun r s' hr => ?_)
  cases r with
  | ok b => exact hf b s' hr
  | error e => exact behaves_error

/-! ## §3. Parties. -/

section Parties

variable {ι : Type} [DecidableEq ι]

/-- **Parties whose guarantees are what the others rely on.**  Every step is one that its
party guarantees, and leaves all of them as they should be. -/
theorem Parallel.behave {R G : ι → σ → σ → Prop} {K : ι → κ → σ → Prop} {Q : ι → α → σ → Prop}
    (hothers : ∀ i j s s', i ≠ j → G i s s' → R j s s')
    {parties parties' : ι → Process σ Answer α} {s s' : σ}
    (hstep : Parallel (parties, s) (parties', s'))
    (h : ∀ i, (parties i).Behaves (R i) (G i) (K i) (Q i) s) :
    (s' = s ∨ ∃ i, G i s s') ∧ ∀ i, (parties' i).Behaves (R i) (G i) (K i) (Q i) s' := by
  cases hstep with
  | @step p' _ _ _ i hone =>
      obtain ⟨hchange, hnext⟩ := (h i).step hone
      refine ⟨hchange.imp_right fun hchange => ⟨i, hchange⟩, fun j => ?_⟩
      by_cases hij : j = i
      · subst hij
        rw [Function.update_self]
        exact hnext
      · rw [Function.update_of_ne hij]
        rcases hchange with rfl | hchange
        · exact h j
        · exact (h j).others (.single (hothers i j _ _ (Ne.symm hij) hchange))

end Parties

/-! ## §4. Parts of a larger state. -/

section Embedding

variable {τ κ' : Type} {Answer' : κ' → Type}

/-- A procedure on a part of the state, whose questions are some of many. -/
def embed (get : σ → τ) (set : τ → σ → σ) (question : κ' → κ)
    (answer : ∀ q, Answer (question q) → Answer' q) : Process τ Answer' α → Process σ Answer α
  | done a => done a
  | act update next =>
      act (fun s => set (update (get s)) s) fun s => embed get set question answer (next (get s))
  | ask q next => ask (question q) fun a => embed get set question answer (next (answer q a))

variable {get : σ → τ} {set : τ → σ → σ} {question : κ' → κ}
  {answer : ∀ q, Answer (question q) → Answer' q}

theorem embed_bind (p : Process τ Answer' β) (f : β → Process τ Answer' α) :
    (p >>= f).embed get set question answer
      = p.embed get set question answer >>= fun b => (f b).embed get set question answer := by
  show (p.bind f).embed get set question answer
    = (p.embed get set question answer).bind fun b => (f b).embed get set question answer
  induction p with
  | done b => rfl
  | act update next ih => exact congrArg (act _) (funext fun s => ih (get s))
  | ask q next ih => exact congrArg (ask _) (funext fun a => ih (answer q a))

/-- **A sequence with errors, on a part of the state.** -/
theorem embed_then {P : β → σ → Prop} {p : ExceptT ε (Process τ Answer') β}
    {f : β → ExceptT ε (Process τ Answer') α} {s : σ}
    (hp : (embed get set question answer p.run).Behaves R G K (Unless P) s)
    (hf : ∀ b s', P b s' → (embed get set question answer (f b).run).Behaves R G K (Unless Q) s') :
    Behaves R G K (Unless Q)
      (embed get set question answer ((p >>= f : ExceptT ε (Process τ Answer') α).run)) s := by
  show Behaves R G K (Unless Q) (embed get set question answer
    ((show Process τ Answer' (Except ε β) from p) >>= ExceptT.bindCont f)) s
  rw [embed_bind]
  refine behaves_bind (Behaves.imp hp fun r s' hr => ?_)
  cases r with
  | ok b => exact hf b s' hr
  | error e => exact behaves_error

end Embedding

end QingzhouSSH.Lib.Process
