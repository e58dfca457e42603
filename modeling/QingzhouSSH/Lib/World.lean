/-
  QingzhouSSH.Lib.World — procedures that are answered by a world.

  The answers to a procedure come from a world outside of its state, and a question may
  change the world.  `Responds` says which answers are possible in a world, and which world
  is left behind.

  Main results:
    * `keeps_iff` — `Keeps` is what is true wherever the procedure stops, and at its end;
    * `keeps_bind`, `keeps_andThen` — the rules for a sequence, without and with errors;
    * `keeps_of_asks` — what none of its questions changes is kept;
    * `keeps_of_within` — the same, where the questions depend on the state;
    * `keeps_widen` — a procedure as a part of one that asks more;
    * `runThrough_reaches` — a world that answers one way, as a run that evaluates.
-/
import QingzhouSSH.Lib.Process

namespace QingzhouSSH.Lib.Process

variable {σ τ κ : Type} {Answer : κ → Type} {α β ε : Type}

/-! ## §1. Steps. -/

/-- One step of a procedure, the state it works on, and the world. -/
inductive StepWith (Responds : (question : κ) → τ → Answer question → τ → Prop) :
    Process σ Answer α × σ × τ → Process σ Answer α × σ × τ → Prop where
  | act (update : σ → σ) (next : σ → Process σ Answer α) (s : σ) (w : τ) :
      StepWith Responds (.act update next, s, w) (next s, update s, w)
  | ask (question : κ) (next : Answer question → Process σ Answer α)
      (answer : Answer question) (s : σ) (w w' : τ) :
      Responds question w answer w' →
      StepWith Responds (.ask question next, s, w) (next answer, s, w')

def ReachesWith (Responds : (question : κ) → τ → Answer question → τ → Prop) :
    Process σ Answer α × σ × τ → Process σ Answer α × σ × τ → Prop :=
  Relation.ReflTransGen (StepWith Responds)

variable {Responds : (question : κ) → τ → Answer question → τ → Prop}

/-- `C` in every state and world that is reached, and `Q` at the end. -/
def Keeps (Responds : (question : κ) → τ → Answer question → τ → Prop) (C : σ → τ → Prop)
    (Q : α → σ → τ → Prop) : Process σ Answer α → σ → τ → Prop
  | done a, s, w => C s w ∧ Q a s w
  | act update next, s, w => C s w ∧ (next s).Keeps Responds C Q (update s) w
  | ask question next, s, w =>
      C s w ∧ ∀ answer w', Responds question w answer w' →
        (next answer).Keeps Responds C Q s w'

variable {C : σ → τ → Prop} {Q Q' : α → σ → τ → Prop}

theorem Keeps.here {p : Process σ Answer α} {s : σ} {w : τ} (h : p.Keeps Responds C Q s w) :
    C s w := by
  cases p with
  | done a => exact h.1
  | act update next => exact h.1
  | ask question next => exact h.1

theorem Keeps.step {c c' : Process σ Answer α × σ × τ} (hstep : StepWith Responds c c')
    (h : c.1.Keeps Responds C Q c.2.1 c.2.2) : c'.1.Keeps Responds C Q c'.2.1 c'.2.2 := by
  cases hstep with
  | act update next s w => exact h.2
  | ask question next answer s w w' hresponds => exact h.2 answer w' hresponds

theorem Keeps.reaches {c c' : Process σ Answer α × σ × τ} (hreach : ReachesWith Responds c c')
    (h : c.1.Keeps Responds C Q c.2.1 c.2.2) : c'.1.Keeps Responds C Q c'.2.1 c'.2.2 := by
  induction hreach with
  | refl => exact h
  | tail _ hstep ih => exact ih.step hstep

/-- **`Keeps` says what is true wherever the procedure stops.** -/
theorem keeps_iff {p : Process σ Answer α} {s : σ} {w : τ} :
    p.Keeps Responds C Q s w ↔
      ∀ p' s' w', ReachesWith Responds (p, s, w) (p', s', w') →
        C s' w' ∧ ∀ a, p' = done a → Q a s' w' := by
  constructor
  · intro h p' s' w' hreach
    have h' := h.reaches hreach
    refine ⟨h'.here, ?_⟩
    rintro a rfl
    exact h'.2
  · intro h
    have hhere := (h p s w .refl).1
    induction p generalizing s w with
    | done a => exact ⟨hhere, (h (done a) s w .refl).2 a rfl⟩
    | act update next ih =>
        have hnext : ∀ p' s' w', ReachesWith Responds (next s, update s, w) (p', s', w') →
            C s' w' ∧ ∀ a, p' = done a → Q a s' w' :=
          fun p' s' w' hreach => h p' s' w' (.head (.act update next s w) hreach)
        exact ⟨hhere, ih s hnext (hnext _ _ _ .refl).1⟩
    | ask question next ih =>
        refine ⟨hhere, fun answer w₁ hresponds => ?_⟩
        have hnext : ∀ p' s' w', ReachesWith Responds (next answer, s, w₁) (p', s', w') →
            C s' w' ∧ ∀ a, p' = done a → Q a s' w' :=
          fun p' s' w' hreach =>
            h p' s' w' (.head (.ask question next answer s w w₁ hresponds) hreach)
        exact ih answer hnext (hnext _ _ _ .refl).1

/-! ## §2. Rules. -/

theorem Keeps.imp {p : Process σ Answer α} {s : σ} {w : τ} (h : p.Keeps Responds C Q s w)
    (hq : ∀ a s' w', C s' w' → Q a s' w' → Q' a s' w') : p.Keeps Responds C Q' s w := by
  induction p generalizing s w with
  | done a => exact ⟨h.1, hq a s w h.1 h.2⟩
  | act update next ih => exact ⟨h.1, ih s h.2⟩
  | ask question next ih =>
      exact ⟨h.1, fun answer w' hresponds => ih answer (h.2 answer w' hresponds)⟩

/-- **A sequence: what holds at the end of the first part starts the second.** -/
theorem keeps_bind {p : Process σ Answer β} {f : β → Process σ Answer α} {s : σ} {w : τ}
    (h : p.Keeps Responds C (fun b s' w' => (f b).Keeps Responds C Q s' w') s w) :
    (p >>= f).Keeps Responds C Q s w := by
  show (p.bind f).Keeps Responds C Q s w
  induction p generalizing s w with
  | done b => exact h.2
  | act update next ih => exact ⟨h.1, ih s h.2⟩
  | ask question next ih =>
      exact ⟨h.1, fun answer w' hresponds => ih answer (h.2 answer w' hresponds)⟩

/-- **A sequence with errors: an error ends it.** -/
theorem keeps_andThen {Q : Except ε α → σ → τ → Prop} {p : ExceptT ε (Process σ Answer) β}
    {f : β → ExceptT ε (Process σ Answer) α} {s : σ} {w : τ}
    (h : Keeps Responds C (fun r s' w' =>
      match r with
      | .ok b => Keeps Responds C Q (f b).run s' w'
      | .error e => Q (.error e) s' w') p.run s w) :
    Keeps Responds C Q ((p >>= f : ExceptT ε (Process σ Answer) α).run) s w := by
  show ((show Process σ Answer (Except ε β) from p) >>= ExceptT.bindCont f).Keeps Responds C Q s w
  refine keeps_bind (Keeps.imp h fun r s' w' hc hr => ?_)
  cases r with
  | ok b => exact hr
  | error e => exact ⟨hc, hr⟩

/-- A sequence, with what the first part comes to. -/
theorem keeps_part {G : Except ε β → σ → τ → Prop} {Q : Except ε α → σ → τ → Prop}
    {p : ExceptT ε (Process σ Answer) β} {f : β → ExceptT ε (Process σ Answer) α} {s : σ} {w : τ}
    (h : Keeps Responds C G p.run s w)
    (hok : ∀ b s' w', C s' w' → G (.ok b) s' w' → Keeps Responds C Q (f b).run s' w')
    (herror : ∀ e s' w', C s' w' → G (.error e) s' w' → Q (.error e) s' w') :
    Keeps Responds C Q ((p >>= f : ExceptT ε (Process σ Answer) α).run) s w := by
  refine keeps_andThen (h.imp fun r s' w' hc hr => ?_)
  cases r with
  | ok b => exact hok b s' w' hc hr
  | error e => exact herror e s' w' hc hr

theorem keeps_atomic {t : σ → α × σ} {s : σ} {w : τ} (hs : C s w) (hs' : C (t s).2 w)
    (h : Q (t s).1 (t s).2 w) : (atomic t : Process σ Answer α).Keeps Responds C Q s w :=
  ⟨hs, hs', h⟩

/-- A part that cannot fail. -/
theorem keeps_lift {Q : Except ε α → σ → τ → Prop} {p : Process σ Answer α} {s : σ} {w : τ}
    (h : p.Keeps Responds C (fun a s' w' => Q (.ok a) s' w') s w) :
    Keeps Responds C Q (ExceptT.lift p : ExceptT ε (Process σ Answer) α).run s w := by
  show (p.bind fun a => done (.ok a)).Keeps Responds C Q s w
  exact keeps_bind (h.imp fun a s' w' hc hq => ⟨hc, hq⟩)

/-- A sequence whose first part cannot fail. -/
theorem keeps_lifted {Q : Except ε α → σ → τ → Prop} {G : β → σ → τ → Prop}
    {p : Process σ Answer β} {f : β → ExceptT ε (Process σ Answer) α} {s : σ} {w : τ}
    (h : p.Keeps Responds C G s w)
    (hf : ∀ b s' w', C s' w' → G b s' w' → Keeps Responds C Q (f b).run s' w') :
    Keeps Responds C Q (ExceptT.lift p >>= f : ExceptT ε (Process σ Answer) α).run s w := by
  refine keeps_andThen (keeps_lift (h.imp fun b s' w' hc hb => ?_))
  exact hf b s' w' hc hb

/-- A question, and what is done with the answer. -/
theorem keeps_answer {Q : Except ε α → σ → τ → Prop} {question : κ}
    {f : Answer question → ExceptT ε (Process σ Answer) α} {s : σ} {w : τ} (hs : C s w)
    (h : ∀ answer w', Responds question w answer w' → Keeps Responds C Q (f answer).run s w') :
    Keeps Responds C Q
      (ExceptT.lift (query question) >>= f : ExceptT ε (Process σ Answer) α).run s w :=
  ⟨hs, h⟩

/-- A transaction, which goes through or changes nothing. -/
theorem keeps_update {Q : Except ε α → σ → τ → Prop} {f : σ → Except ε σ}
    {g : Unit → ExceptT ε (Process σ Answer) α} {s : σ} {w : τ} (hs : C s w)
    (hok : ∀ s', f s = .ok s' → Keeps Responds C Q (g ()).run s' w)
    (herror : ∀ e, f s = .error e → Q (.error e) s w) :
    Keeps Responds C Q (update f >>= g : ExceptT ε (Process σ Answer) α).run s w := by
  refine keeps_andThen ?_
  cases hf : f s with
  | ok s' =>
      refine keeps_atomic hs ?_ ?_
      · rw [hf]
        exact (hok s' hf).here
      · rw [hf]
        exact hok s' hf
  | error e =>
      refine keeps_atomic hs ?_ ?_
      · rw [hf]
        exact hs
      · rw [hf]
        exact herror e hf

theorem keeps_trivial (p : Process σ Answer α) (s : σ) (w : τ) :
    p.Keeps Responds (fun _ _ => True) (fun _ _ _ => True) s w := by
  induction p generalizing s w with
  | done a => exact ⟨trivial, trivial⟩
  | act update next ih => exact ⟨trivial, ih s (update s) w⟩
  | ask question next ih => exact ⟨trivial, fun answer w' _ => ih answer s w'⟩

/-! ## §3. What a procedure asks. -/

/-- Every question that is asked is one of these. -/
def Asks (P : κ → Prop) : Process σ Answer α → Prop
  | done _ => True
  | act _ next => ∀ s, (next s).Asks P
  | ask question next => P question ∧ ∀ answer, (next answer).Asks P

variable {P : κ → Prop}

theorem asks_bind {p : Process σ Answer β} {f : β → Process σ Answer α} (hp : p.Asks P)
    (hf : ∀ b, (f b).Asks P) : (p >>= f).Asks P := by
  show (p.bind f).Asks P
  induction p with
  | done b => exact hf b
  | act update next ih => exact fun s => ih s (hp s)
  | ask question next ih => exact ⟨hp.1, fun answer => ih answer (hp.2 answer)⟩

theorem asks_andThen {p : ExceptT ε (Process σ Answer) β}
    {f : β → ExceptT ε (Process σ Answer) α} (hp : Asks P p.run) (hf : ∀ b, Asks P (f b).run) :
    Asks P (p >>= f : ExceptT ε (Process σ Answer) α).run := by
  show Asks P ((show Process σ Answer (Except ε β) from p) >>= ExceptT.bindCont f)
  refine asks_bind hp fun r => ?_
  cases r with
  | ok b => exact hf b
  | error e => exact trivial

/-- **What no question changes is kept.** -/
theorem keeps_of_asks {p : Process σ Answer α} {I : τ → Prop} (hp : p.Asks P)
    (hstep : ∀ question, P question → ∀ w answer w', Responds question w answer w' → I w → I w')
    {s : σ} {w : τ} (hw : I w) :
    p.Keeps Responds (fun _ w => I w) (fun _ _ _ => True) s w := by
  induction p generalizing s w with
  | done a => exact ⟨hw, trivial⟩
  | act update next ih => exact ⟨hw, ih s (hp s) hw⟩
  | ask question next ih =>
      exact ⟨hw, fun answer w' hresponds =>
        ih answer (hp.2 answer) (hstep question hp.1 w answer w' hresponds hw)⟩

/-! ## §4. A world that answers one way. -/

/-- Run to the end in a world that answers one way. -/
def runThrough (respond : (question : κ) → τ → Answer question × τ) :
    Process σ Answer α → σ → τ → α × σ × τ
  | done a, s, w => (a, s, w)
  | act update next, s, w => runThrough respond (next s) (update s) w
  | ask question next, s, w =>
      runThrough respond (next (respond question w).1) s (respond question w).2

/-- **Such a run is one of those that are possible.** -/
theorem runThrough_reaches {respond : (question : κ) → τ → Answer question × τ}
    (hresponds : ∀ question w, Responds question w (respond question w).1 (respond question w).2)
    (p : Process σ Answer α) (s : σ) (w : τ) :
    ReachesWith Responds (p, s, w)
      (done (runThrough respond p s w).1, (runThrough respond p s w).2) := by
  induction p generalizing s w with
  | done a => exact .refl
  | act update next ih => exact .head (.act update next s w) (ih s (update s) w)
  | ask question next ih =>
      exact .head (.ask question next _ s w _ (hresponds question w))
        (ih (respond question w).1 s (respond question w).2)

theorem runThrough_ends {respond : (question : κ) → τ → Answer question × τ}
    (hresponds : ∀ question w, Responds question w (respond question w).1 (respond question w).2)
    {p : Process σ Answer α} {s : σ} {w : τ} {a : α} (h : (runThrough respond p s w).1 = a) :
    ReachesWith Responds (p, s, w)
      (done a, (runThrough respond p s w).2.1, (runThrough respond p s w).2.2) := by
  subst h
  exact runThrough_reaches hresponds p s w

/-! ## §5. What a procedure does with its state. -/

/-- The state stays in `J`, and from there only these questions are asked. -/
def Within (J : σ → Prop) (P : κ → Prop) : Process σ Answer α → Prop
  | done _ => True
  | act update next => ∀ s, J s → J (update s) ∧ (next s).Within J P
  | ask question next => P question ∧ ∀ answer, (next answer).Within J P

variable {J : σ → Prop}

theorem within_bind {p : Process σ Answer β} {f : β → Process σ Answer α} (hp : p.Within J P)
    (hf : ∀ b, (f b).Within J P) : (p >>= f).Within J P := by
  show (p.bind f).Within J P
  induction p with
  | done b => exact hf b
  | act update next ih => exact fun s hs => ⟨(hp s hs).1, ih s (hp s hs).2⟩
  | ask question next ih => exact ⟨hp.1, fun answer => ih answer (hp.2 answer)⟩

theorem within_andThen {p : ExceptT ε (Process σ Answer) β}
    {f : β → ExceptT ε (Process σ Answer) α} (hp : Within J P p.run)
    (hf : ∀ b, Within J P (f b).run) :
    Within J P (p >>= f : ExceptT ε (Process σ Answer) α).run := by
  show Within J P ((show Process σ Answer (Except ε β) from p) >>= ExceptT.bindCont f)
  refine within_bind hp fun r => ?_
  cases r with
  | ok b => exact hf b
  | error e => exact trivial

theorem within_of_asks {p : Process σ Answer α} (hp : p.Asks P) :
    p.Within (fun _ => True) P := by
  induction p with
  | done a => trivial
  | act update next ih => exact fun s _ => ⟨trivial, ih s (hp s)⟩
  | ask question next ih => exact ⟨hp.1, fun answer => ih answer (hp.2 answer)⟩

/-- **What no question changes is kept, if the state is one of `J`.** -/
theorem keeps_of_within {p : Process σ Answer α} {I : τ → Prop} (hp : p.Within J P)
    (hstep : ∀ question, P question → ∀ w answer w', Responds question w answer w' → I w → I w')
    {s : σ} {w : τ} (hs : J s) (hw : I w) :
    p.Keeps Responds (fun s w => J s ∧ I w) (fun _ _ _ => True) s w := by
  induction p generalizing s w with
  | done a => exact ⟨⟨hs, hw⟩, trivial⟩
  | act update next ih => exact ⟨⟨hs, hw⟩, ih s (hp s hs).2 (hp s hs).1 hw⟩
  | ask question next ih =>
      exact ⟨⟨hs, hw⟩, fun answer w' hresponds =>
        ih answer (hp.2 answer) hs (hstep question hp.1 w answer w' hresponds hw)⟩

/-- What no question changes at all is kept. -/
theorem keeps_of_step (p : Process σ Answer α) {I : τ → Prop}
    (hstep : ∀ question w answer w', Responds question w answer w' → I w → I w') {s : σ} {w : τ}
    (hw : I w) : p.Keeps Responds (fun _ w => I w) (fun _ _ w => I w) s w := by
  induction p generalizing s w with
  | done a => exact ⟨hw, hw⟩
  | act update next ih => exact ⟨hw, ih s hw⟩
  | ask question next ih =>
      exact ⟨hw, fun answer w' hresponds => ih answer (hstep question w answer w' hresponds hw)⟩

theorem Keeps.and {C' : σ → τ → Prop} {p : Process σ Answer α} {s : σ} {w : τ}
    (h : p.Keeps Responds C Q s w) (h' : p.Keeps Responds C' Q' s w) :
    p.Keeps Responds (fun s w => C s w ∧ C' s w) (fun a s w => Q a s w ∧ Q' a s w) s w := by
  induction p generalizing s w with
  | done a => exact ⟨⟨h.1, h'.1⟩, h.2, h'.2⟩
  | act update next ih => exact ⟨⟨h.1, h'.1⟩, ih s h.2 h'.2⟩
  | ask question next ih =>
      exact ⟨⟨h.1, h'.1⟩, fun answer w' hresponds =>
        ih answer (h.2 answer w' hresponds) (h'.2 answer w' hresponds)⟩

theorem Keeps.mono {C' : σ → τ → Prop} {p : Process σ Answer α} {s : σ} {w : τ}
    (h : p.Keeps Responds C Q s w) (hc : ∀ s' w', C s' w' → C' s' w')
    (hq : ∀ a s' w', C s' w' → Q a s' w' → Q' a s' w') : p.Keeps Responds C' Q' s w := by
  induction p generalizing s w with
  | done a => exact ⟨hc s w h.1, hq a s w h.1 h.2⟩
  | act update next ih => exact ⟨hc s w h.1, ih s h.2⟩
  | ask question next ih =>
      exact ⟨hc s w h.1, fun answer w' hresponds => ih answer (h.2 answer w' hresponds)⟩

/-! ## §6. Questions that may end a procedure. -/

section Fallible

variable {Q : Except ε α → σ → τ → Prop}

/-- A result that is there. -/
def conclude (result : Except ε β) : ExceptT ε (Process σ Answer) β := ExceptT.mk (done result)

/-- A question whose answer may be an error. -/
def tryAsk (question : κ) (result : Answer question → Except ε β) :
    ExceptT ε (Process σ Answer) β :=
  ExceptT.mk (ask question fun answer => done (result answer))

theorem keeps_conclude {result : Except ε β} {f : β → ExceptT ε (Process σ Answer) α} {s : σ}
    {w : τ} (hs : C s w) (hok : ∀ b, result = .ok b → Keeps Responds C Q (f b).run s w)
    (herror : ∀ e, result = .error e → Q (.error e) s w) :
    Keeps Responds C Q (conclude result >>= f : ExceptT ε (Process σ Answer) α).run s w := by
  refine keeps_andThen ?_
  cases result with
  | ok b => exact ⟨hs, hok b rfl⟩
  | error e => exact ⟨hs, herror e rfl⟩

theorem keeps_tryAsk {question : κ} {result : Answer question → Except ε β}
    {f : β → ExceptT ε (Process σ Answer) α} {s : σ} {w : τ} (hs : C s w)
    (hok : ∀ answer w' b, Responds question w answer w' → result answer = .ok b →
      Keeps Responds C Q (f b).run s w')
    (herror : ∀ answer w' e, Responds question w answer w' → result answer = .error e →
      C s w' ∧ Q (.error e) s w') :
    Keeps Responds C Q (tryAsk question result >>= f : ExceptT ε (Process σ Answer) α).run s w := by
  refine keeps_andThen ⟨hs, fun answer w' hresponds => ?_⟩
  show Keeps Responds C _ (done (result answer)) s w'
  cases hresult : result answer with
  | ok b =>
      have hnext := hok answer w' b hresponds hresult
      exact ⟨hnext.here, hnext⟩
  | error e => exact herror answer w' e hresponds hresult

theorem within_conclude (result : Except ε β) :
    Within J P (conclude result : ExceptT ε (Process σ Answer) β).run := trivial

theorem within_tryAsk {question : κ} (h : P question) (result : Answer question → Except ε β) :
    Within J P (tryAsk question result : ExceptT ε (Process σ Answer) β).run :=
  ⟨h, fun _ => trivial⟩

theorem within_answer {question : κ} (h : P question) :
    Within J P (ExceptT.lift (query question) : ExceptT ε (Process σ Answer) _).run :=
  ⟨h, fun _ => trivial⟩

end Fallible

/-! ## §7. A part of a procedure. -/

section Widen

variable {κ' τ' : Type} {Answer' : κ' → Type}

/-- A procedure whose questions are some of those of a larger one. -/
def widen (embed : κ → κ') (back : ∀ question, Answer' (embed question) → Answer question) :
    Process σ Answer α → Process σ Answer' α
  | done a => done a
  | act update next => act update fun s => widen embed back (next s)
  | ask question next =>
      ask (embed question) fun answer => widen embed back (next (back question answer))

variable {embed : κ → κ'} {back : ∀ question, Answer' (embed question) → Answer question}
  {Responds' : (question : κ') → τ' → Answer' question → τ' → Prop} {project : τ' → τ}
  {F : τ' → Prop}

/-- **A part keeps, of the smaller world, what it keeps alone.** -/
theorem keeps_widen {p : Process σ Answer α}
    (hstep : ∀ question w answer w', F w → Responds' (embed question) w answer w' →
      Responds question (project w) (back question answer) (project w') ∧ F w')
    {s : σ} {w : τ'} (hw : F w) (h : p.Keeps Responds C Q s (project w)) :
    (p.widen embed back).Keeps Responds' (fun s w => C s (project w) ∧ F w)
      (fun a s w => Q a s (project w)) s w := by
  induction p generalizing s w with
  | done a => exact ⟨⟨h.1, hw⟩, h.2⟩
  | act update next ih => exact ⟨⟨h.1, hw⟩, ih s hw h.2⟩
  | ask question next ih =>
      refine ⟨⟨h.1, hw⟩, fun answer w' hresponds => ?_⟩
      obtain ⟨hsmall, hw'⟩ := hstep question w answer w' hw hresponds
      exact ih _ hw' (h.2 _ _ hsmall)

theorem within_widen {P' : κ' → Prop} {p : Process σ Answer α} (hp : p.Within J P)
    (hP : ∀ question, P question → P' (embed question)) :
    (p.widen embed back).Within J P' := by
  induction p with
  | done a => trivial
  | act update next ih => exact fun s hs => ⟨(hp s hs).1, ih s (hp s hs).2⟩
  | ask question next ih => exact ⟨hP question hp.1, fun answer => ih _ (hp.2 _)⟩

end Widen

end QingzhouSSH.Lib.Process
