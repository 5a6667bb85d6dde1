import Mathlib.Data.List.Nodup
import QueryTree.Proofs.Http.Plan
import QueryTree.Proofs.Keyed

/-!
# Many errands at once

Requests, schema applications and closes are under way on one app (`Traffic`). Each reads what it was
given, takes the lock of the store if it needs it, makes its engine calls one at a time, releases the
lock and is answered, and the steps of all of them may be mixed (`Traffic.run?`). What whoever holds the
lock has still to do gives, on the store as it is then, what comes of all that took the lock one after
the other (`Traffic.Serial`). So store and answers are in the end those of running the errands one at a
time in the order in which they took the lock (`Traffic.run?_serial`).

An engine call is one step. Errands go their way to the end: none is given up before it is answered, as
for a deadline, and the lock goes to any of those who wait for it.
-/

namespace QueryTree

variable {σ : Type}

/-- Something that is asked of an app; a request comes at a time. -/
inductive Errand where
  | request (now : String) (request : Request)
  | schema (script : String)
  | close

namespace Errand

inductive Reply where
  | response (response : Response)
  | applied (outcome : Except StoreFault Unit)
  | closed

/-- What the errand comes to before it takes the lock. -/
def plan (config : Config) (routes : RouteTable) : Errand → Store.Plan Reply
  | .request now r => App.plan config routes now r Reply.response
  | .schema script => .needs (.schema script .applied)
  | .close => .needs (.close .closed)

variable [Engine σ]

/-- Runs the errand with nothing beside it. -/
def serve (app : App σ) : Errand → Reply × App σ
  | .request now r => (app.handle now r).map .response id
  | .schema script =>
    let (outcome, store) := app.store.applySchema script
    (.applied outcome, { app with store })
  | .close => (.closed, { app with store := app.store.close })

theorem serve_snd (app : App σ) (e : Errand) :
    (e.serve app).2 = { app with store := (e.serve app).2.store } := by
  cases e with
  | request now r => exact app.handle_snd now r
  | schema | close => rfl

theorem run_plan (app : App σ) (e : Errand) :
    (e.plan app.config app.routes).run app.store = (e.serve app).map id App.store := by
  cases e with
  | request now r => exact app.run_plan now r Reply.response
  | schema script => exact Store.Need.run_schema app.store script Reply.applied
  | close => rfl

end Errand

open Errand (Reply)

/-- An app and the errands that are under way on it. -/
structure Traffic (σ ι : Type) where
  app : App σ
  errand : ι → Errand

namespace Traffic

/-- How far an errand has come. -/
inductive Stage where
  | arrived
  | waiting (need : Store.Need Reply)
  | holding (work : Store.Work Reply)
  | released (reply : Reply)
  | answered (reply : Reply)

structure State (σ ι : Type) where
  store : Store σ
  /-- Who holds the lock of the store. -/
  holder : Option ι
  stage : ι → Stage

/-- A step of one of the errands. -/
inductive Event (ι : Type) where
  /-- The parameters are read and the statement is rendered. -/
  | prepare (i : ι)
  | take (i : ι)
  /-- An engine call. -/
  | call (i : ι)
  | release (i : ι)
  | answer (i : ι)

variable {ι : Type}

def plan (t : Traffic σ ι) (i : ι) : Store.Plan Reply := (t.errand i).plan t.app.config t.app.routes

def start (t : Traffic σ ι) : State σ ι := ⟨t.app.store, none, fun _ => .arrived⟩

/-- Who has taken the lock, in order. -/
def taken (events : List (Event ι)) : List ι :=
  events.filterMap fun
    | .take i => some i
    | _ => none

theorem taken_append (events events' : List (Event ι)) :
    taken (events ++ events') = taken events ++ taken events' := List.filterMap_append ..

section Move

variable [DecidableEq ι]

def State.move (s : State σ ι) (i : ι) (stage : Stage) : State σ ι :=
  { s with stage := Function.update s.stage i stage }

theorem State.stage_move_self (s : State σ ι) (i : ι) (stage : Stage) :
    (s.move i stage).stage i = stage := Function.update_self ..

theorem State.stage_move_of_ne {i j : ι} (h : j ≠ i) (s : State σ ι) (stage : Stage) :
    (s.move i stage).stage j = s.stage j := Function.update_of_ne h ..

end Move

variable [Engine σ]

/-- Runs errands one at a time. -/
def serveAll (t : Traffic σ ι) : List ι → App σ → List (ι × Reply) × App σ
  | [], app => ([], app)
  | i :: order, app =>
    let (reply, app) := (t.errand i).serve app
    let (replies, app) := t.serveAll order app
    ((i, reply) :: replies, app)

/-! ### One at a time -/

variable {t : Traffic σ ι} {order : List ι} {app : App σ} {reply : Reply} {i j : ι}

theorem serveAll_cons (t : Traffic σ ι) (i : ι) (order : List ι) (app : App σ) :
    t.serveAll (i :: order) app =
      ((i, ((t.errand i).serve app).1) :: (t.serveAll order ((t.errand i).serve app).2).1,
        (t.serveAll order ((t.errand i).serve app).2).2) := rfl

theorem serveAll_append_singleton (t : Traffic σ ι) (order : List ι) (i : ι) (app : App σ) :
    t.serveAll (order ++ [i]) app =
      ((t.serveAll order app).1 ++ [(i, ((t.errand i).serve (t.serveAll order app).2).1)],
        ((t.errand i).serve (t.serveAll order app).2).2) := by
  induction order generalizing app with
  | nil => rfl
  | cons j order ih =>
    rw [List.cons_append, serveAll_cons, ih]
    rfl

theorem keys_serveAll (t : Traffic σ ι) (order : List ι) (app : App σ) :
    Keyed.keys (t.serveAll order app).1 = order := by
  induction order generalizing app with
  | nil => rfl
  | cons i order ih =>
    rw [serveAll_cons, Keyed.keys_cons, ih]

theorem serveAll_snd (t : Traffic σ ι) (order : List ι) (app : App σ) :
    (t.serveAll order app).2 = { app with store := (t.serveAll order app).2.store } := by
  induction order generalizing app with
  | nil => rfl
  | cons i order ih =>
    rw [serveAll_cons, ih, (t.errand i).serve_snd app]

theorem run_plan (t : Traffic σ ι) (i : ι) (store : Store σ) :
    (t.plan i).run store = ((t.errand i).serve { t.app with store }).map id App.store :=
  (t.errand i).run_plan { t.app with store }

/-- An errand that has its answer before the lock has the same one at any time, and changes nothing. -/
theorem serve_of_answered (h : t.plan i = .answered reply) (store : Store σ) :
    (t.errand i).serve { t.app with store } = (reply, { t.app with store }) := by
  have hrun := t.run_plan i store
  rw [h] at hrun
  refine Prod.ext (congrArg Prod.fst hrun).symm ?_
  have hstore : store = ((t.errand i).serve { t.app with store }).2.store := congrArg Prod.snd hrun
  rw [Errand.serve_snd, ← hstore]

/-- Errands that are answered without the store can be left out of an order. -/
theorem serveAll_of_sublist {order' : List ι} (h : order.Sublist order') (hnodup : order'.Nodup)
    (hothers : ∀ i ∈ order', i ∉ order → ∃ reply, t.plan i = .answered reply) (store : Store σ) :
    (t.serveAll order' { t.app with store }).2 = (t.serveAll order { t.app with store }).2 ∧
      (t.serveAll order { t.app with store }).1 ⊆ (t.serveAll order' { t.app with store }).1 ∧
      ∀ i ∈ order', i ∉ order → ∀ reply, t.plan i = .answered reply →
        (i, reply) ∈ (t.serveAll order' { t.app with store }).1 := by
  induction h generalizing store with
  | slnil => exact ⟨rfl, List.Subset.refl _, nofun⟩
  | @cons order order' i h ih =>
    obtain ⟨hi, hnodup⟩ := List.nodup_cons.1 hnodup
    have hnot : i ∉ order := fun hmem => hi (h.subset hmem)
    obtain ⟨reply, hplan⟩ := hothers i List.mem_cons_self hnot
    obtain ⟨hsame, hsub, hrest⟩ := ih hnodup (fun j hj => hothers j (List.mem_cons_of_mem i hj)) store
    rw [serveAll_cons, serve_of_answered hplan]
    refine ⟨hsame, List.subset_cons_of_subset _ hsub, fun j hj hjnot reply' hreply' => ?_⟩
    rcases List.mem_cons.1 hj with rfl | hj
    · obtain rfl : reply = reply' := by simpa [hplan] using hreply'
      exact List.mem_cons_self
    · exact List.mem_cons_of_mem _ (hrest j hj hjnot reply' hreply')
  | @cons_cons order order' i h ih =>
    obtain ⟨hi, hnodup⟩ := List.nodup_cons.1 hnodup
    have hne : ∀ j ∈ order', j ≠ i := fun j hj heq => hi (heq ▸ hj)
    have hothers' : ∀ j ∈ order', j ∉ order → ∃ reply, t.plan j = .answered reply :=
      fun j hj hjnot => hothers j (List.mem_cons_of_mem i hj) (by simp [hne j hj, hjnot])
    rw [serveAll_cons, serveAll_cons, Errand.serve_snd]
    obtain ⟨hsame, hsub, hrest⟩ := ih hnodup hothers' ((t.errand i).serve { t.app with store }).2.store
    refine ⟨hsame, List.cons_subset_cons _ hsub, fun j hj hjnot reply hreply => ?_⟩
    rcases List.mem_cons.1 hj with rfl | hj
    · exact absurd List.mem_cons_self hjnot
    · exact List.mem_cons_of_mem _ (hrest j hj (fun h => hjnot (List.mem_cons_of_mem i h)) reply hreply)

/-! ### The invariant -/

/-- The answer is that of serving the errands in the order, or the errand is none of them and is
answered without the store. -/
def Settled (t : Traffic σ ι) (order : List ι) (i : ι) (reply : Reply) : Prop :=
  (i, reply) ∈ (t.serveAll order t.app).1 ∨ i ∉ order ∧ t.plan i = .answered reply

/-- What is known of an errand by its stage, if those in `order` have taken the lock. -/
def Stage.Agrees (t : Traffic σ ι) (order : List ι) (holder : Option ι) (store : Store σ) (i : ι) :
    Stage → Prop
  | .arrived => i ∉ order
  | .waiting need => i ∉ order ∧ t.plan i = .needs need
  | .holding work => holder = some i ∧ ∃ before, order = before ++ [i] ∧
      work.finish store = ((t.errand i).serve (t.serveAll before t.app).2).map id App.store
  | .released reply => t.Settled order i reply
  | .answered reply => t.Settled order i reply

/-- The state that errands are in when those in `order` have taken the lock, one after the other. -/
structure Serial (t : Traffic σ ι) (order : List ι) (s : State σ ι) : Prop where
  nodup : order.Nodup
  agrees : ∀ i, (s.stage i).Agrees t order s.holder s.store i
  held : ∀ i, s.holder = some i → ∃ work, s.stage i = .holding work
  free : s.holder = none → s.store = (t.serveAll order t.app).2.store

section Agrees

variable {stage : Stage} {holder : Option ι} {store : Store σ}

theorem Stage.Agrees.of_not_holder (h : stage.Agrees t order holder store j) (hne : holder ≠ some j)
    (holder' : Option ι) (store' : Store σ) : stage.Agrees t order holder' store' j := by
  cases stage with
  | holding work => exact absurd h.1 hne
  | arrived | waiting | released | answered => exact h

theorem Settled.append (h : t.Settled order j reply) (hne : j ≠ i) :
    t.Settled (order ++ [i]) j reply := by
  rcases h with hmem | ⟨hnot, hplan⟩
  · refine .inl ?_
    rw [serveAll_append_singleton]
    exact List.mem_append_left _ hmem
  · exact .inr ⟨by simp [hnot, hne], hplan⟩

theorem Stage.Agrees.append (h : stage.Agrees t order holder store j) (hfree : holder ≠ some j)
    (hne : j ≠ i) (holder' : Option ι) (store' : Store σ) :
    stage.Agrees t (order ++ [i]) holder' store' j := by
  cases stage with
  | arrived => simpa [Agrees, hne] using h
  | waiting need => simpa [Agrees, hne] using h
  | holding work => exact absurd h.1 hfree
  | released reply | answered reply => exact Settled.append h hne

end Agrees

namespace Serial

theorem start (t : Traffic σ ι) : Serial t [] t.start where
  nodup := List.nodup_nil
  agrees _ := List.not_mem_nil
  held _ h := nomatch h
  free _ := rfl

/-- What is known of the others does not depend on what the holder does. -/
theorem others {s : State σ ι} (h : Serial t order s) (hholder : s.holder = some i)
    (holder : Option ι) (store : Store σ) :
    ∀ j, j ≠ i → (s.stage j).Agrees t order holder store j := by
  intro j hj
  refine (h.agrees j).of_not_holder ?_ holder store
  rw [hholder]
  exact fun heq => hj (Option.some.inj heq).symm

end Serial

/-! ### When all are answered -/

section Answered

variable {s : State σ ι} {replies : ι → Reply} (hdone : ∀ i, s.stage i = .answered (replies i))

include hdone

theorem Serial.settled (h : Serial t order s) (i : ι) : t.Settled order i (replies i) := by
  have hagrees := h.agrees i
  rwa [hdone i] at hagrees

theorem Serial.store_eq (h : Serial t order s) : s.store = (t.serveAll order t.app).2.store := by
  refine h.free ?_
  cases hholder : s.holder with
  | none => rfl
  | some i =>
    obtain ⟨work, hwork⟩ := h.held i hholder
    rw [hdone i] at hwork
    cases hwork

theorem Serial.plan_of_not_mem (h : Serial t order s) (hi : i ∉ order) :
    t.plan i = .answered (replies i) := by
  rcases h.settled hdone i with hmem | ⟨-, hplan⟩
  · have hkey : i ∈ Keyed.keys (t.serveAll order t.app).1 := List.mem_map_of_mem (f := Prod.fst) hmem
    rw [keys_serveAll] at hkey
    exact absurd hkey hi
  · exact hplan

/-- The errands that took the lock, and the others anywhere between them, one at a time. -/
theorem Serial.serveAll_eq [DecidableEq ι] {order' : List ι} (h : Serial t order s)
    (hnodup : order'.Nodup) (hall : ∀ i, i ∈ order') (hsub : order.Sublist order') :
    t.serveAll order' t.app =
      (order'.map fun i => (i, replies i), { t.app with store := s.store }) := by
  obtain ⟨hsame, hsubset, hrest⟩ := serveAll_of_sublist hsub hnodup
    (fun i _ hi => ⟨replies i, h.plan_of_not_mem hdone hi⟩) t.app.store
  have hmem : ∀ i ∈ Keyed.keys (t.serveAll order' t.app).1,
      (i, replies i) ∈ (t.serveAll order' t.app).1 := by
    intro i _
    rcases h.settled hdone i with hmem | ⟨hi, hplan⟩
    · exact hsubset hmem
    · exact hrest i (hall i) hi (replies i) hplan
  refine Prod.ext ?_ ?_
  · have hlist := Keyed.eq_map_of_mem ((t.keys_serveAll order' t.app).symm ▸ hnodup) hmem
    rwa [keys_serveAll] at hlist
  · rw [h.store_eq hdone, ← serveAll_snd]
    exact hsame

end Answered

/-! ### Steps -/

section Step

variable [DecidableEq ι]

/-- Makes a step, if the errand has come to it. Nobody takes the lock while it is held. -/
def step? (t : Traffic σ ι) (s : State σ ι) : Event ι → Option (State σ ι)
  | .prepare i =>
    match s.stage i with
    | .arrived =>
      match t.plan i with
      | .answered reply => some (s.move i (.released reply))
      | .needs need => some (s.move i (.waiting need))
    | _ => none
  | .take i =>
    match s.stage i, s.holder with
    | .waiting need, none =>
      let (work, store) := need.enter s.store
      some (State.move { s with store, holder := some i } i (.holding work))
    | _, _ => none
  | .call i =>
    match s.stage i with
    | .holding work => (work.call s.store).map fun (work, store) =>
      State.move { s with store } i (.holding work)
    | _ => none
  | .release i =>
    match s.stage i with
    | .holding (.done reply) => some (State.move { s with holder := none } i (.released reply))
    | _ => none
  | .answer i =>
    match s.stage i with
    | .released reply => some (s.move i (.answered reply))
    | _ => none

/-- Makes steps in their order, if each can be made. -/
def run? (t : Traffic σ ι) : List (Event ι) → State σ ι → Option (State σ ι)
  | [], s => some s
  | event :: events, s => (t.step? s event).bind (t.run? events)

/-! ### What a step does -/

/-- The ways in which a step can be made. -/
inductive Step (t : Traffic σ ι) (s : State σ ι) : Event ι → State σ ι → Prop
  | settled {i : ι} {reply : Reply} (hstage : s.stage i = .arrived)
      (hplan : t.plan i = .answered reply) :
      Step t s (.prepare i) (s.move i (.released reply))
  | prepared {i : ι} {need : Store.Need Reply} (hstage : s.stage i = .arrived)
      (hplan : t.plan i = .needs need) : Step t s (.prepare i) (s.move i (.waiting need))
  | took {i : ι} {need : Store.Need Reply} (hstage : s.stage i = .waiting need)
      (hfree : s.holder = none) :
      Step t s (.take i)
        (State.move { s with store := (need.enter s.store).2, holder := some i } i
          (.holding (need.enter s.store).1))
  | called {i : ι} {work work' : Store.Work Reply} {store : Store σ} (hstage : s.stage i = .holding work)
      (hcall : work.call s.store = some (work', store)) :
      Step t s (.call i) (State.move { s with store } i (.holding work'))
  | released {i : ι} {reply : Reply} (hstage : s.stage i = .holding (.done reply)) :
      Step t s (.release i) (State.move { s with holder := none } i (.released reply))
  | answered {i : ι} {reply : Reply} (hstage : s.stage i = .released reply) :
      Step t s (.answer i) (s.move i (.answered reply))

variable {s s' : State σ ι} {event : Event ι} {events : List (Event ι)}

theorem step_of_step? (h : t.step? s event = some s') : Step t s event s' := by
  cases event with
  | prepare i =>
    rw [step?] at h
    split at h
    · next hstage =>
      split at h
      · next hplan =>
        cases h
        exact .settled hstage hplan
      · next hplan =>
        cases h
        exact .prepared hstage hplan
    · cases h
  | take i =>
    rw [step?] at h
    split at h
    · next hstage hfree =>
      cases h
      exact .took hstage hfree
    · cases h
  | call i =>
    rw [step?] at h
    split at h
    · next hstage =>
      obtain ⟨⟨work', store⟩, hcall, rfl⟩ := Option.map_eq_some_iff.1 h
      exact .called hstage hcall
    · cases h
  | release i =>
    rw [step?] at h
    split at h
    · next hstage =>
      cases h
      exact .released hstage
    · cases h
  | answer i =>
    rw [step?] at h
    split at h
    · next hstage =>
      cases h
      exact .answered hstage
    · cases h

theorem agrees_move {stage : Stage} {holder : Option ι} {store : Store σ}
    (h : ∀ j, j ≠ i → (s.stage j).Agrees t order holder store j)
    (hi : stage.Agrees t order holder store i) (j : ι) :
    ((s.move i stage).stage j).Agrees t order holder store j := by
  by_cases hj : j = i
  · subst hj
    rw [State.stage_move_self]
    exact hi
  · rw [State.stage_move_of_ne hj]
    exact h j hj

namespace Serial

variable {stage : Stage}

/-- A step outside the lock. -/
theorem move (h : Serial t order s) (hfrom : ∀ work, s.stage i ≠ .holding work)
    (hto : stage.Agrees t order s.holder s.store i) : Serial t order (s.move i stage) where
  nodup := h.nodup
  agrees := agrees_move (fun j _ => h.agrees j) hto
  held j hj := by
    obtain ⟨work, hwork⟩ := h.held j hj
    have hne : j ≠ i := by
      rintro rfl
      exact hfrom work hwork
    exact ⟨work, by rw [State.stage_move_of_ne hne, hwork]⟩
  free := h.free

theorem take {need : Store.Need Reply} (h : Serial t order s) (hstage : s.stage i = .waiting need)
    (hfree : s.holder = none) :
    Serial t (order ++ [i]) (State.move
      { s with store := (need.enter s.store).2, holder := some i } i
        (.holding (need.enter s.store).1)) := by
  have hwaiting := h.agrees i
  rw [hstage] at hwaiting
  obtain ⟨hnot, hplan⟩ := hwaiting
  have hrun := t.run_plan i s.store
  rw [hplan, h.free hfree, ← t.serveAll_snd order t.app, ← h.free hfree] at hrun
  constructor
  case nodup => exact List.nodup_append.2 ⟨h.nodup, List.nodup_singleton i, by
    rintro j hj _ hi rfl
    exact hnot (List.mem_singleton.1 hi ▸ hj)⟩
  case agrees =>
    refine agrees_move (fun j hj => ?_) ⟨rfl, order, rfl, hrun⟩
    exact (h.agrees j).append (by simp [hfree]) hj _ _
  case held =>
    rintro j ⟨⟩
    exact ⟨_, State.stage_move_self ..⟩
  case free => exact nofun

theorem call {work work' : Store.Work Reply} {store : Store σ} (h : Serial t order s)
    (hstage : s.stage i = .holding work) (hcall : work.call s.store = some (work', store)) :
    Serial t order (State.move { s with store } i (.holding work')) := by
  have hholding := h.agrees i
  rw [hstage] at hholding
  obtain ⟨hholder, before, horder, hfinish⟩ := hholding
  rw [← Store.Work.finish_of_call hcall] at hfinish
  constructor
  case nodup => exact h.nodup
  case agrees =>
    exact agrees_move (h.others hholder s.holder store) ⟨hholder, before, horder, hfinish⟩
  case held =>
    intro j hj
    obtain rfl : i = j := Option.some.inj (hholder.symm.trans hj)
    exact ⟨_, State.stage_move_self ..⟩
  case free =>
    intro hnone
    rw [show s.holder = none from hnone] at hholder
    cases hholder

theorem release (h : Serial t order s) (hstage : s.stage i = .holding (.done reply)) :
    Serial t order (State.move { s with holder := none } i (.released reply)) := by
  have hholding := h.agrees i
  rw [hstage] at hholding
  obtain ⟨hholder, before, rfl, hfinish⟩ := hholding
  have hreply : reply = ((t.errand i).serve (t.serveAll before t.app).2).1 :=
    congrArg Prod.fst hfinish
  have hstore : s.store = ((t.errand i).serve (t.serveAll before t.app).2).2.store :=
    congrArg Prod.snd hfinish
  constructor
  case nodup => exact h.nodup
  case agrees =>
    refine agrees_move (h.others hholder none s.store) (.inl ?_)
    rw [serveAll_append_singleton, hreply]
    exact List.mem_append_right _ List.mem_cons_self
  case held => exact nofun
  case free =>
    rintro -
    rw [serveAll_append_singleton]
    exact hstore

theorem step (h : Serial t order s) (hstep : Step t s event s') :
    Serial t (order ++ taken [event]) s' := by
  cases hstep with
  | @settled i reply hstage hplan =>
    have harrived := h.agrees i
    rw [hstage] at harrived
    exact (List.append_nil order).symm ▸ h.move (by simp [hstage]) (.inr ⟨harrived, hplan⟩)
  | @prepared i need hstage hplan =>
    have harrived := h.agrees i
    rw [hstage] at harrived
    exact (List.append_nil order).symm ▸ h.move (by simp [hstage]) ⟨harrived, hplan⟩
  | took hstage hfree => exact h.take hstage hfree
  | called hstage hcall => exact (List.append_nil order).symm ▸ h.call hstage hcall
  | released hstage => exact (List.append_nil order).symm ▸ h.release hstage
  | @answered i reply hstage =>
    have hreleased := h.agrees i
    rw [hstage] at hreleased
    exact (List.append_nil order).symm ▸ h.move (by simp [hstage]) hreleased

theorem run (h : Serial t order s) (hrun : t.run? events s = some s') :
    Serial t (order ++ taken events) s' := by
  induction events generalizing order s with
  | nil =>
    cases hrun
    exact (List.append_nil order).symm ▸ h
  | cons event events ih =>
    obtain ⟨s₁, hstep, hrest⟩ := Option.bind_eq_some_iff.1 hrun
    have hall := ih (h.step (step_of_step? hstep)) hrest
    rw [List.append_assoc, taken, taken, ← List.filterMap_append] at hall
    exact hall

end Serial

/-! ### Whole runs -/

theorem run?_append (t : Traffic σ ι) (events events' : List (Event ι)) (s : State σ ι) :
    t.run? (events ++ events') s = (t.run? events s).bind (t.run? events') := by
  induction events generalizing s with
  | nil => rfl
  | cons event events ih =>
    rw [List.cons_append, run?, run?, Option.bind_assoc]
    exact congrArg _ (funext fun s => ih s)

theorem serial_of_run? (h : t.run? events t.start = some s) : Serial t (taken events) s :=
  (Serial.start t).run h

variable {events' between after : List (Event ι)}

/-- Who makes a call was the last to take the lock. -/
theorem taken_of_call (h : t.run? (events ++ .call i :: events') t.start = some s) :
    ∃ before, taken events = before ++ [i] := by
  rw [run?_append] at h
  obtain ⟨s₁, hbefore, hrest⟩ := Option.bind_eq_some_iff.1 h
  obtain ⟨s₂, hcall, -⟩ := Option.bind_eq_some_iff.1 hrest
  have hagrees := (serial_of_run? hbefore).agrees i
  cases step_of_step? hcall with
  | called hstage =>
    rw [hstage] at hagrees
    obtain ⟨-, before, horder, -⟩ := hagrees
    exact ⟨before, horder⟩

theorem nodup_taken (h : t.run? events t.start = some s) : (taken events).Nodup :=
  (serial_of_run? h).nodup

/-- Between two calls of an errand nobody takes the lock. -/
theorem taken_between
    (h : t.run? (events ++ .call i :: (between ++ .call i :: after)) t.start = some s) :
    taken between = [] := by
  obtain ⟨before, hfirst⟩ := taken_of_call h
  rw [← List.cons_append, ← List.append_assoc] at h
  obtain ⟨before', hsecond⟩ := taken_of_call h
  have hall := nodup_taken h
  rw [taken_append] at hall
  have hbetween : taken (events ++ .call i :: between) = before ++ [i] ++ taken between := by
    rw [taken_append, hfirst]
    rfl
  rcases List.eq_nil_or_concat (taken between) with hnil | ⟨l, j, hlast⟩
  · exact hnil
  · rw [List.concat_eq_append] at hlast
    rw [hbetween, hlast] at hsecond hall
    rw [← List.append_assoc] at hsecond
    obtain rfl : j = i := List.singleton_inj.1 (List.append_inj' hsecond rfl).2
    have hapart := (List.nodup_append.1 hall.of_append_left).2.2
    exact absurd rfl (hapart j (by simp) j (by simp))

theorem eq_of_call_between
    (h : t.run? (events ++ .call i :: (between ++ .call i :: after)) t.start = some s)
    (hj : .call j ∈ between) : j = i := by
  have hnone := taken_between h
  obtain ⟨before, hfirst⟩ := taken_of_call h
  obtain ⟨first, rest, rfl⟩ := List.append_of_mem hj
  rw [taken_append, List.append_eq_nil_iff] at hnone
  rw [List.append_assoc, List.cons_append, ← List.cons_append, ← List.append_assoc] at h
  obtain ⟨before', hsecond⟩ := taken_of_call h
  have hsame : taken (events ++ .call i :: first) = before ++ [i] := by
    rw [taken_append, hfirst]
    show before ++ [i] ++ taken first = _
    rw [hnone.1, List.append_nil]
  rw [hsame] at hsecond
  exact (List.singleton_inj.1 (List.append_inj' hsecond rfl).2).symm

/-- When all errands have been answered, each has taken the lock once at most, and store and answers are
those of running the errands one at a time, in any order in which those that took the lock come as they
took it. No other errand makes an engine call between two calls of one. -/
theorem run?_serial {replies : ι → Reply} (hrun : t.run? events t.start = some s)
    (hdone : ∀ i, s.stage i = .answered (replies i)) :
    (taken events).Nodup ∧
      (∀ order : List ι, order.Nodup → (∀ i, i ∈ order) → (taken events).Sublist order →
        t.serveAll order t.app =
          (order.map fun i => (i, replies i), { t.app with store := s.store })) ∧
      ∀ before between after i j, events = before ++ .call i :: (between ++ .call i :: after) →
        .call j ∈ between → j = i := by
  refine ⟨nodup_taken hrun, fun order hnodup hall hsub => ?_, ?_⟩
  · exact (serial_of_run? hrun).serveAll_eq hdone hnodup hall hsub
  · rintro before between after i j rfl hj
    exact eq_of_call_between hrun hj

/-! ### A library -/

def Stage.isAnswered : Stage → Bool
  | .answered _ => true
  | _ => false

def library : Traffic Session (Fin 4) where
  app := ⟨{ Config.standard with cors := false },
    ⟨[⟨⟨.get, "/add", "add.sql", none⟩, "INSERT INTO books VALUES ('Emma')"⟩]⟩, .start .empty none⟩
  errand
    | 0 => .schema "CREATE TABLE books (title); CREATE TABLE lent (title)"
    | 2 => .close
    | _ => .request "now" ⟨"GET", ⟨"/add", ""⟩, []⟩

/-- The schema is applied while the first request waits; the second one comes behind the close. -/
def mixed : List (Event (Fin 4)) :=
  [.prepare 1, .prepare 0, .take 0, .call 0, .prepare 3, .call 0, .prepare 2, .release 0, .take 1,
    .answer 0, .call 1, .release 1, .take 2, .release 2, .take 3, .answer 2, .release 3, .answer 3,
    .answer 1]

theorem run?_serial_library :
    taken mixed = [0, 1, 2, 3] ∧ ∃ (s : State Session (Fin 4)) (replies : Fin 4 → Reply),
      library.run? mixed library.start = some s ∧
      (∀ i, s.stage i = .answered (replies i)) ∧
      library.serveAll [0, 1, 2, 3] library.app =
        ([0, 1, 2, 3].map fun i => (i, replies i), { library.app with store := s.store }) := by
  have htaken : taken mixed = [0, 1, 2, 3] := by decide
  have hmixed : ((library.run? mixed library.start).any fun s =>
      (List.finRange 4).all fun i => (s.stage i).isAnswered) = true := by decide +kernel
  obtain ⟨s, hrun⟩ : ∃ s, library.run? mixed library.start = some s := by
    refine Option.ne_none_iff_exists'.1 fun hnone => ?_
    rw [hnone] at hmixed
    cases hmixed
  rw [hrun] at hmixed
  have hdone : ∀ i, ∃ reply, s.stage i = .answered reply := by
    intro i
    have hi := List.all_eq_true.1 hmixed i (List.mem_finRange i)
    cases hstage : s.stage i with
    | answered reply => exact ⟨reply, rfl⟩
    | arrived | waiting | holding | released =>
      rw [hstage] at hi
      cases hi
  choose replies hreplies using hdone
  obtain ⟨-, hserve, -⟩ := run?_serial hrun hreplies
  exact ⟨htaken, s, replies, hrun, hreplies, hserve _ (by decide) (by decide) (by rw [htaken])⟩

end Step
end Traffic
end QueryTree
