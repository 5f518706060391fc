import Mathlib.Data.List.Permutation
import Mathlib.Tactic.SplitIfs
import Madoka.Rooms.Membership

namespace Rooms

open Lib

-- What a write makes of the record of room r.
def Cmd.stores (r : Nat) : Cmd → List (Option Room)
  | .setRoom room => if room.id = r then [some room] else []
  | .delRoom roomId => if roomId = r then [none] else []
  | _ => []

def stores (r : Nat) (cmds : List Cmd) : List (Option Room) := cmds.flatMap (Cmd.stores r)

def written (r : Nat) (s : State) : Event → List (Option Room)
  | .next i =>
    match s.ops i with
    | some (.body _ _ _ (c :: _)) => c.stores r
    | _ => []
  | _ => []

-- An operation on room r whose body comes to its end; a create counts where it stores the room.
def succeeded (r : Nat) (s : State) : Event → List (Nat × Op)
  | .next i =>
    match s.ops i with
    | some (.load op roomId) =>
      match op.body (s.rooms roomId) with
      | .ok [] => if roomId = r ∧ op.isCreate = false then [(i, op)] else []
      | _ => []
    | some (.body op roomId done (_ :: todo)) =>
      if roomId = r ∧ (if op.isCreate then done = [] else todo = []) then [(i, op)] else []
    | _ => []
  | _ => []

def stored (r : Nat) (es : List Event) : List (Option Room) := logged step (written r) start es

def successes (r : Nat) (es : List Event) : List (Nat × Op) := logged step (succeeded r) start es

def current (recs : List (Option Room)) : Option Room := recs.getLast?.getD none

-- One operation after the other.
def serve (r : Nat) (recs : List (Option Room)) : Op → Option (List (Option Room))
  | .create account req now => some (recs ++ [some (newRoom account req r now)])
  | op =>
    match op.body (current recs) with
    | .ok cmds => some (recs ++ stores r cmds)
    | .error _ => none

def serial (r : Nat) (ops : List Op) : Option (List (Option Room)) := ops.foldlM (serve r) []

-- No lease that has run out is taken from its holder, and no command fails once the record is stored.
def Lasting (s : State) : Event → Prop
  | .fail i => ∀ op roomId done todo, s.ops i = some (.body op roomId done todo) →
      op.isCreate = false → stores roomId done = []
  | e => Calm s e

def AtRest (s : State) (r : Nat) : Prop :=
  ∀ i op done todo, s.ops i = some (.body op r done todo) → op.isCreate = true

variable {s t : State} {r : Nat} {e : Event} {es : List Event}

theorem calm_of_lasting (h : Lasting s e) : Calm s e := by
  cases e with
  | fail i => trivial
  | _ => exact h

theorem stores_append (xs ys : List Cmd) : stores r (xs ++ ys) = stores r xs ++ stores r ys :=
  List.flatMap_append

theorem serial_snoc {ops : List Op} {recs : List (Option Room)} (h : serial r ops = some recs) (op : Op) :
    serial r (ops ++ [op]) = serve r recs op := by
  unfold serial at h ⊢
  rw [List.foldlM_append, h]
  exact bind_pure (serve r recs op)

theorem serve_ok {op : Op} {recs : List (Option Room)} {cmds : List Cmd} (hc : op.isCreate = false)
    (h : op.body (current recs) = .ok cmds) : serve r recs op = some (recs ++ stores r cmds) := by
  cases op with
  | create account req now => cases hc
  | _ => simp only [serve, h]

theorem current_stores (recs : List (Option Room)) (c : Cmd) :
    current (recs ++ c.stores r) = if c.roomId = some r then c.onRoom (current recs) else current recs := by
  cases c with
  | setRoom room =>
    simp only [Cmd.stores, Cmd.roomId, Cmd.onRoom, Option.some.injEq]
    split_ifs with h
    · simp [current]
    · rw [List.append_nil]
  | delRoom roomId =>
    simp only [Cmd.stores, Cmd.roomId, Cmd.onRoom, Option.some.injEq]
    split_ifs with h
    · simp [current]
    · rw [List.append_nil]
  | setMember a r' => exact congrArg current (List.append_nil recs)
  | delMember a => exact congrArg current (List.append_nil recs)

theorem stores_of_roomId {c : Cmd} (h : c.roomId ≠ some r) : c.stores r = [] := by
  cases c with
  | setRoom room => exact if_neg fun he => h (congrArg some he)
  | delRoom roomId => exact if_neg fun he => h (congrArg some he)
  | _ => rfl

def Pc.inBody : Pc → Bool
  | .body _ _ _ _ => true
  | _ => false

def Pc.inSection : Pc → Bool
  | .body op _ _ _ => !op.isCreate
  | _ => false

def Pc.over : Pc → Bool
  | .finished _ _ => true
  | _ => false

def Pc.releasing : Pc → Bool
  | .release _ _ _ => true
  | _ => false

def Pc.said : Pc → Bool
  | .release _ _ .ok => true
  | _ => false

-- A move outside of the bodies.
structure Aside (pc pc' : Pc) : Prop where
  old : pc.inBody = false
  running : pc.over = false
  new : pc'.inSection = false
  unsaid : pc'.said = false
  kept : pc.releasing = false ∨ ∃ op r out, pc = .release op r out ∧ pc' = .finished op out

-- How a step moves the operations: outside of the bodies, into one, inside one, out of one.
inductive Turn (s : State) : Event → State → Prop where
  | called {i : Nat} {op : Op} (hop : s.ops i = none) (hpc : op.call.inSection = false)
      (hout : op.call.said = false) : Turn s (.call i op) (s.goto i op.call)
  | aside {e : Event} {i : Nat} {pc pc' : Pc} {t : State} (hop : s.ops i = some pc)
      (h : Aside pc pc') (hm : Moves s t i pc')
      (hlog : ∀ r, written r s e = [] ∧ succeeded r s e = []) : Turn s e t
  | enter {i r : Nat} {op : Op} {cmds : List Cmd} (hop : s.ops i = some (.load op r))
      (hb : op.body (s.rooms r) = .ok cmds) : Turn s (.next i) (s.goto i (bodyPc op r [] cmds))
  | write {i r : Nat} {op : Op} {done todo : List Cmd} {c : Cmd}
      (hop : s.ops i = some (.body op r done (c :: todo))) :
      Turn s (.next i) (s.wrote i op r done c todo)
  | drop {i r : Nat} {op : Op} {done todo : List Cmd} (hop : s.ops i = some (.body op r done todo)) :
      Turn s (.fail i) (s.goto i (ended op r .failed))
  | expire (r : Nat) : Turn s (.expire r) { s with locks := Function.update s.locks r none }

theorem log_other (he : ∀ i, e ≠ .next i) (r : Nat) : written r s e = [] ∧ succeeded r s e = [] := by
  cases e with
  | next i => exact absurd rfl (he i)
  | _ => exact ⟨rfl, rfl⟩

theorem log_next {i : Nat} {pc : Pc} (hpc : s.ops i = some pc) (hbody : pc.inBody = false)
    (hload : ∀ op r, pc = .load op r → op.body (s.rooms r) ≠ .ok []) (r : Nat) :
    written r s (.next i) = [] ∧ succeeded r s (.next i) = [] := by
  rw [written, succeeded, hpc]
  cases pc with
  | body op r done todo => cases hbody
  | load op r =>
    refine ⟨rfl, ?_⟩
    have hne := hload op r rfl
    dsimp only
    split
    · next hb => exact absurd hb hne
    · rfl
  | _ => exact ⟨rfl, rfl⟩

theorem aside_resolve (s : State) (op : Op) : Aside (.resolve op) (resolve s op) := by
  refine ⟨rfl, rfl, ?_, ?_, Or.inl rfl⟩
  · cases op with
    | kick | change | startMatch | reenter => rfl
    | _ =>
      simp only [resolve]
      split <;> rfl
  · cases op with
    | kick | change | startMatch | reenter => rfl
    | _ =>
      simp only [resolve]
      split <;> rfl

theorem turn_call {i : Nat} {op : Op} (hs : Step s (.call i op) t) : Turn s (.call i op) t := by
  simp only [Step, step] at hs
  split at hs
  · next hnone =>
    cases hs
    refine .called hnone ?_ ?_
    · cases op with
      | join | switchSeat =>
        simp only [Op.call]
        split_ifs <;> rfl
      | _ => rfl
    · cases op with
      | join | switchSeat =>
        simp only [Op.call]
        split_ifs <;> rfl
      | _ => rfl
  · cases hs

theorem turn_next {i : Nat} (hs : Step s (.next i) t) : Turn s (.next i) t := by
  obtain ⟨pc, hpc, hstep⟩ := Option.bind_eq_some_iff.mp hs
  cases pc with
  | resolve op =>
    cases hstep
    exact .aside hpc (aside_resolve s op) (moves_goto s i _) (log_next hpc rfl (by rintro _ _ ⟨⟩))
  | incr op =>
    cases op with
    | create account req now =>
      cases hstep
      exact .aside hpc (⟨rfl, rfl, rfl, rfl, Or.inl rfl⟩ : Aside _ (.body _ _ _ _))
        (moves_incr s i _) (log_next hpc rfl (by rintro _ _ ⟨⟩))
    | _ => cases hstep
  | lock op r =>
    simp only [stepOp] at hstep
    split at hstep
    · next hfree =>
      cases hstep
      exact .aside hpc (⟨rfl, rfl, rfl, rfl, Or.inl rfl⟩ : Aside _ (.load op r)) (moves_lock hfree)
        (log_next hpc rfl (by rintro _ _ ⟨⟩))
    · cases hstep
  | load op r =>
    simp only [stepOp] at hstep
    split at hstep
    · next cmds hb =>
      cases hstep
      exact .enter hpc hb
    · next err hb =>
      cases hstep
      refine .aside hpc ⟨rfl, rfl, rfl, rfl, Or.inl rfl⟩ (moves_goto s i _) (log_next hpc rfl ?_)
      rintro op' r' ⟨⟩ hok
      rw [hb] at hok
      cases hok
  | body op r done todo =>
    cases todo with
    | nil => cases hstep
    | cons c todo =>
      cases hstep
      exact .write hpc
  | release op r out =>
    cases hstep
    exact .aside hpc ⟨rfl, rfl, rfl, rfl, Or.inr ⟨op, r, out, rfl, rfl⟩⟩ (moves_unlock s i r _)
      (log_next hpc rfl (by rintro _ _ ⟨⟩))
  | finished op out => cases hstep

theorem turn_fail {i : Nat} (hs : Step s (.fail i) t) : Turn s (.fail i) t := by
  obtain ⟨pc, hpc, hstep⟩ := Option.bind_eq_some_iff.mp hs
  have hlog := @log_other s (.fail i) (by rintro _ ⟨⟩)
  cases pc with
  | body op r done todo =>
    cases hstep
    exact .drop hpc
  | finished op out => cases hstep
  | release op r out =>
    cases hstep
    exact .aside hpc ⟨rfl, rfl, rfl, rfl, Or.inr ⟨op, r, out, rfl, rfl⟩⟩ (moves_goto s i _) hlog
  | _ =>
    cases hstep
    exact .aside hpc ⟨rfl, rfl, rfl, rfl, Or.inl rfl⟩ (moves_goto s i _) hlog

theorem turn_step (hs : Step s e t) : Turn s e t := by
  cases e with
  | call i op => exact turn_call hs
  | next i => exact turn_next hs
  | timeout i =>
    simp only [Step, step] at hs
    split at hs
    · next op r hj =>
      cases hs
      exact .aside hj ⟨rfl, rfl, rfl, rfl, Or.inl rfl⟩ (moves_goto s i _)
        (log_other (by rintro _ ⟨⟩))
    · cases hs
  | fail i => exact turn_fail hs
  | expire r =>
    cases hs
    exact .expire r

-- The successful operations, one after the other, store what has been stored.
structure Serialised (r : Nat) (es : List Event) (s : State) : Prop where
  run : Run Step start es s
  inv : Inv s
  held : s.rooms r = current (stored r es)
  rest : AtRest s r → serial r ((successes r es).map Prod.snd) = some (stored r es)
  busy : ∀ i op done todo, s.ops i = some (.body op r done todo) → op.isCreate = false →
    ∃ recs, serial r ((successes r es).map Prod.snd) = some recs ∧
      op.body (current recs) = .ok (done ++ todo) ∧ stored r es = recs ++ stores r done

theorem stored_snoc (h : Run Step start es s) (e : Event) :
    stored r (es ++ [e]) = stored r es ++ written r s e := logged_snoc h

theorem successes_snoc (h : Run Step start es s) (e : Event) :
    successes r (es ++ [e]) = successes r es ++ succeeded r s e := logged_snoc h

theorem section_unique (hi : Inv s) {i j : Nat} {op op' : Op} {done done' todo todo' : List Cmd}
    (hc : op.isCreate = false) (hc' : op'.isCreate = false)
    (hop : s.ops i = some (.body op r done todo)) (hop' : s.ops j = some (.body op' r done' todo')) :
    i = j :=
  hi.lease i j _ _ r hop hop' (locked_body hc) (locked_body hc')

theorem Serialised.still (h : Serialised r es s) (hs : Step s e t) (hi : Inv t)
    (hrooms : t.rooms r = s.rooms r) (hlog : written r s e = [] ∧ succeeded r s e = [])
    (hsec : ∀ i op done todo, op.isCreate = false →
      (t.ops i = some (.body op r done todo) ↔ s.ops i = some (.body op r done todo))) :
    Serialised r (es ++ [e]) t := by
  have hstored : stored r (es ++ [e]) = stored r es := by
    rw [stored_snoc h.run, hlog.1, List.append_nil]
  have hsucc : successes r (es ++ [e]) = successes r es := by
    rw [successes_snoc h.run, hlog.2, List.append_nil]
  refine ⟨h.run.next hs, hi, ?_, ?_, ?_⟩
  · rw [hstored, hrooms]
    exact h.held
  · intro hrest
    rw [hstored, hsucc]
    refine h.rest fun i op done todo hop => ?_
    cases hc : op.isCreate with
    | true => rfl
    | false => exact hc ▸ hrest i op done todo ((hsec i op done todo hc).mpr hop)
  · intro i op done todo hop hc
    rw [hstored, hsucc]
    exact h.busy i op done todo ((hsec i op done todo hc).mp hop) hc

theorem section_iff {i : Nat} {pc : Pc} (hops : t.ops = Function.update s.ops i (some pc))
    (hold : ∀ op done todo, op.isCreate = false → s.ops i ≠ some (.body op r done todo))
    (hnew : ∀ op done todo, op.isCreate = false → pc ≠ .body op r done todo) :
    ∀ j op done todo, op.isCreate = false →
      (t.ops j = some (.body op r done todo) ↔ s.ops j = some (.body op r done todo)) := by
  intro j op done todo hc
  rw [hops]
  by_cases hj : j = i
  · subst hj
    rw [Function.update_self]
    exact iff_of_false (fun h => hnew op done todo hc (Option.some.inj h)) (hold op done todo hc)
  · rw [Function.update_of_ne hj]

theorem not_section {pc : Pc} (h : pc.inSection = false) :
    ∀ op done todo, op.isCreate = false → pc ≠ .body op r done todo := by
  rintro op done todo hc rfl
  simp only [Pc.inSection, hc, Bool.not_false, Bool.true_eq_false] at h

theorem ended_not_section (op : Op) (r' : Nat) (out : Outcome) : (ended op r' out).inSection = false := by
  cases op <;> rfl

theorem bodyPc_not_section {op : Op} {r' : Nat} {done todo : List Cmd} (hne : r' ≠ r) :
    ∀ op' done' todo', op'.isCreate = false → bodyPc op r' done todo ≠ .body op' r done' todo' := by
  intro op' done' todo' hc h
  cases todo with
  | nil => exact bodyPc_nil h
  | cons c todo =>
    cases h
    exact hne rfl

theorem written_body {i r' : Nat} {op : Op} {done todo : List Cmd} {c : Cmd}
    (hop : s.ops i = some (.body op r' done (c :: todo))) : written r s (.next i) = c.stores r := by
  rw [written, hop]

theorem succeeded_body {i r' : Nat} {op : Op} {done todo : List Cmd} {c : Cmd}
    (hop : s.ops i = some (.body op r' done (c :: todo))) : succeeded r s (.next i) =
      if r' = r ∧ (if op.isCreate then done = [] else todo = []) then [(i, op)] else [] := by
  rw [succeeded, hop]

theorem succeeded_load {i r' : Nat} {op : Op} {cmds : List Cmd} (hop : s.ops i = some (.load op r'))
    (hb : op.body (s.rooms r') = .ok cmds) : succeeded r s (.next i) =
      if cmds = [] ∧ r' = r ∧ op.isCreate = false then [(i, op)] else [] := by
  rw [succeeded, hop]
  dsimp only
  rw [hb]
  cases cmds with
  | nil => simp only [true_and]
  | cons c cmds => simp only [reduceCtorEq, false_and, if_false]

theorem map_snoc (xs : List (Nat × Op)) (i : Nat) (op : Op) :
    (xs ++ [(i, op)]).map Prod.snd = xs.map Prod.snd ++ [op] := by
  rw [List.map_append]
  rfl

-- Nobody else relies on the lease, so nobody else is in a body of this room.
theorem Serialised.entered (h : Serialised r es s) {i : Nat} {op : Op} {cmds : List Cmd}
    (hs : Step s (.next i) (s.goto i (bodyPc op r [] cmds)))
    (hi : Inv (s.goto i (bodyPc op r [] cmds))) (hop : s.ops i = some (.load op r))
    (hb : op.body (s.rooms r) = .ok cmds) (hc : op.isCreate = false) :
    Serialised r (es ++ [.next i]) (s.goto i (bodyPc op r [] cmds)) := by
  have hrest : AtRest s r := by
    intro j op' done todo hop'
    cases hc' : op'.isCreate with
    | true => rfl
    | false =>
      have hj : i = j := h.inv.lease i j _ _ r hop hop' rfl (locked_body hc')
      rw [← hj, hop] at hop'
      cases hop'
  have hserial := h.rest hrest
  have hcur := h.held
  have hstored : stored r (es ++ [.next i]) = stored r es := by
    rw [stored_snoc h.run, written, hop]
    exact List.append_nil _
  have hops : (s.goto i (bodyPc op r [] cmds)).ops =
    Function.update s.ops i (some (bodyPc op r [] cmds)) := rfl
  refine ⟨h.run.next hs, hi, ?_, ?_, ?_⟩
  · rw [hstored]
    exact hcur
  · intro hafter
    cases cmds with
    | nil =>
      have hserve := serve_ok (r := r) hc (hcur ▸ hb)
      rw [hstored, successes_snoc h.run, succeeded_load hop hb, if_pos ⟨rfl, rfl, hc⟩, map_snoc,
        serial_snoc hserial, hserve]
      exact congrArg some (List.append_nil _)
    | cons c cmds =>
      have hin := hafter i op [] (c :: cmds) (Function.update_self ..)
      rw [hc] at hin
      cases hin
  · intro j op' done todo hop' hc'
    rcases ops_update hops hop' with ⟨rfl, hpc⟩ | ⟨-, hop'⟩
    · cases cmds with
      | nil => exact absurd hpc.symm bodyPc_nil
      | cons c cmds =>
        cases hpc
        refine ⟨stored r es, ?_, hcur ▸ hb, ?_⟩
        · rw [successes_snoc h.run, succeeded_load hop hb, if_neg (by simp), List.append_nil]
          exact hserial
        · rw [hstored]
          exact (List.append_nil _).symm
    · have hin := hrest j op' done todo hop'
      rw [hc'] at hin
      cases hin

theorem Serialised.wrote (h : Serialised r es s) {i : Nat} {op : Op} {done todo : List Cmd} {c : Cmd}
    (hs : Step s (.next i) (s.wrote i op r done c todo)) (hi : Inv (s.wrote i op r done c todo))
    (hop : s.ops i = some (.body op r done (c :: todo))) (hc : op.isCreate = false) :
    Serialised r (es ++ [.next i]) (s.wrote i op r done c todo) := by
  obtain ⟨recs, hserial, hb, hrecs⟩ := h.busy i op done (c :: todo) hop hc
  have hsplit : done ++ c :: todo = (done ++ [c]) ++ todo := by
    rw [List.append_assoc, List.singleton_append]
  rw [hsplit] at hb
  have hstored : stored r (es ++ [.next i]) = recs ++ stores r (done ++ [c]) := by
    rw [stored_snoc h.run, written_body hop, hrecs, stores_append, List.append_assoc]
    exact congrArg (fun l => recs ++ (stores r done ++ l)) (List.append_nil _).symm
  have hsucc := succeeded_body (r := r) hop
  rw [hc] at hsucc
  refine ⟨h.run.next hs, hi, ?_, ?_, ?_⟩
  · rw [stored_snoc h.run, written_body hop, current_stores, ← h.held]
    exact rooms_wrote r
  · intro hafter
    cases todo with
    | nil =>
      rw [List.append_nil] at hb
      rw [hstored, successes_snoc h.run, hsucc, if_pos ⟨rfl, rfl⟩, map_snoc, serial_snoc hserial,
        serve_ok hc hb]
    | cons c' todo =>
      have hin := hafter i op (done ++ [c]) (c' :: todo) (by rw [ops_wrote, Function.update_self]; rfl)
      rw [hc] at hin
      cases hin
  · intro j op' done' todo' hop' hc'
    rcases body_wrote hop' with ⟨rfl, rfl, -, rfl, rfl⟩ | ⟨hne, hop'⟩
    · refine ⟨recs, ?_, hb, hstored⟩
      cases todo' with
      | nil =>
        rw [ops_wrote, Function.update_self] at hop'
        exact absurd (Option.some.inj hop') bodyPc_nil
      | cons c' todo' =>
        rw [successes_snoc h.run, hsucc, if_neg (by simp), List.append_nil]
        exact hserial
    · exact absurd (section_unique h.inv hc' hc hop' hop) hne

theorem Serialised.created (h : Serialised r es s) {i : Nat} {op : Op} {todo : List Cmd} {c : Cmd}
    (hs : Step s (.next i) (s.wrote i op r [] c todo)) (hi : Inv (s.wrote i op r [] c todo))
    (hop : s.ops i = some (.body op r [] (c :: todo))) (hc : op.isCreate = true) :
    Serialised r (es ++ [.next i]) (s.wrote i op r [] c todo) := by
  obtain ⟨account, req, now, rfl, hcmd⟩ : ∃ account req now, op = .create account req now ∧
      c = .setRoom (newRoom account req r now) := by
    cases h.inv.body i op r [] _ hop with
    | @create account req now _ _ hcmds =>
      rw [List.nil_append, createCmds] at hcmds
      exact ⟨account, req, now, rfl, (List.cons.inj hcmds).1⟩
    | gone => cases hc
    | plan hc' => rw [hc'] at hc; cases hc
  have halone : ∀ j op' done' todo', s.ops j = some (.body op' r done' todo') → op'.isCreate = true := by
    intro j op' done' todo' hop'
    by_cases hne : j = i
    · subst hne
      rw [hop] at hop'
      cases hop'
      rfl
    · exact (alone h.inv hop (by rw [hcmd]; rintro ⟨⟩) hne hop').1
  have hserial := h.rest halone
  refine ⟨h.run.next hs, hi, ?_, ?_, ?_⟩
  · rw [stored_snoc h.run, written_body hop, current_stores, ← h.held]
    exact rooms_wrote r
  · intro _
    rw [stored_snoc h.run, written_body hop, successes_snoc h.run, succeeded_body hop,
      if_pos ⟨rfl, by simp [Op.isCreate]⟩, map_snoc, serial_snoc hserial, serve, hcmd]
    exact congrArg (fun l => some (stored r es ++ l)) (if_pos rfl).symm
  · intro j op' done' todo' hop' hc'
    rcases body_wrote hop' with ⟨-, rfl, -⟩ | ⟨-, hop'⟩
    · cases hc'
    · rw [halone j op' done' todo' hop'] at hc'
      cases hc'

theorem Serialised.dropped (h : Serialised r es s) {i : Nat} {op : Op} {done todo : List Cmd}
    (hs : Step s (.fail i) (s.goto i (ended op r .failed))) (hi : Inv (s.goto i (ended op r .failed)))
    (hop : s.ops i = some (.body op r done todo)) (hc : op.isCreate = false)
    (hnone : stores r done = []) :
    Serialised r (es ++ [.fail i]) (s.goto i (ended op r .failed)) := by
  obtain ⟨recs, hserial, -, hrecs⟩ := h.busy i op done todo hop hc
  rw [hnone, List.append_nil] at hrecs
  have hlog := @log_other s (.fail i) (by rintro _ ⟨⟩) r
  have hstored : stored r (es ++ [.fail i]) = stored r es := by
    rw [stored_snoc h.run, hlog.1, List.append_nil]
  have hsucc : successes r (es ++ [.fail i]) = successes r es := by
    rw [successes_snoc h.run, hlog.2, List.append_nil]
  refine ⟨h.run.next hs, hi, ?_, ?_, ?_⟩
  · rw [hstored]
    exact h.held
  · intro _
    rw [hstored, hsucc, hrecs]
    exact hserial
  · intro j op' done' todo' hop' hc'
    have hops : (s.goto i (ended op r .failed)).ops =
      Function.update s.ops i (some (ended op r .failed)) := rfl
    rcases ops_update hops hop' with ⟨-, hpc⟩ | ⟨hne, hop'⟩
    · exact absurd hpc.symm ((idle_ended op r .failed).1.body op' r done' todo')
    · exact absurd (section_unique h.inv hc' hc hop' hop) hne

theorem Serialised.step (h : Serialised r es s) (hs : Step s e t) (hl : Lasting s e) :
    Serialised r (es ++ [e]) t := by
  have hi : Inv t := inv_step h.inv hs (calm_of_lasting hl)
  cases turn_step hs with
  | @called i op hop hpc hout =>
    refine h.still hs hi rfl (log_other (by rintro _ ⟨⟩) r) (section_iff rfl ?_ (not_section hpc))
    intro op' done todo hc hop'
    rw [hop] at hop'
    cases hop'
  | @aside _ i pc pc' _ hop ha hm hlog =>
    refine h.still hs hi (congrFun hm.rooms r) (hlog r) (section_iff hm.ops ?_ (not_section ha.new))
    intro op' done todo hc hop'
    have hold := ha.old
    rw [hop] at hop'
    rw [Option.some.inj hop'] at hold
    cases hold
  | @enter i r' op cmds hop hb =>
    have hload : ∀ op' done todo, s.ops i ≠ some (.body op' r done todo) := by
      intro op' done todo hop'
      rw [hop] at hop'
      cases hop'
    by_cases hr : r' = r
    · subst hr
      cases hc : op.isCreate with
      | false => exact h.entered hs hi hop hb hc
      | true =>
        refine h.still hs hi rfl ?_ (section_iff rfl (fun op' done todo _ => hload op' done todo) ?_)
        · rw [succeeded_load hop hb, if_neg (by simp [hc]), written, hop]
          exact ⟨rfl, rfl⟩
        · intro op' done todo hc' hpc
          cases cmds with
          | nil => exact bodyPc_nil hpc
          | cons c cmds =>
            cases hpc
            rw [hc] at hc'
            cases hc'
    · refine h.still hs hi rfl ?_
        (section_iff rfl (fun op' done todo _ => hload op' done todo) (bodyPc_not_section hr))
      rw [succeeded_load hop hb, if_neg fun he => hr he.2.1, written, hop]
      exact ⟨rfl, rfl⟩
  | @write i r' op done todo c hop =>
    by_cases hr : r' = r
    · subst hr
      cases hc : op.isCreate with
      | false => exact h.wrote hs hi hop hc
      | true =>
        cases done with
        | nil => exact h.created hs hi hop hc
        | cons d done =>
          have hroom : c.roomId = none := by
            rcases create_done (h.inv.body i op r' (d :: done) _ hop) hc with ⟨hnil, -⟩ | hroom
            · cases hnil
            · exact hroom
          refine h.still hs hi ?_ ?_ (section_iff ops_wrote ?_ ?_)
          · rw [rooms_wrote, hroom]
            exact if_neg (by rintro ⟨⟩)
          · rw [written_body hop, succeeded_body hop, hc]
            exact ⟨stores_of_roomId (by rw [hroom]; rintro ⟨⟩), if_neg (by simp)⟩
          · intro op' done' todo' hc' hop'
            rw [hop] at hop'
            cases hop'
            rw [hc] at hc'
            cases hc'
          · intro op' done' todo' hc' hpc
            cases todo with
            | nil => exact bodyPc_nil hpc
            | cons c' todo =>
              cases hpc
              rw [hc] at hc'
              cases hc'
    · refine h.still hs hi (rooms_wrote_other h.inv hop (Ne.symm hr)) ?_
        (section_iff ops_wrote ?_ (bodyPc_not_section hr))
      · rw [written_body hop, succeeded_body hop, if_neg fun he => hr he.1]
        refine ⟨stores_of_roomId ?_, rfl⟩
        rcases body_roomId (h.inv.body i op r' done _ hop) c (by simp) with hroom | hroom
        · rw [hroom]
          rintro ⟨⟩
        · rw [hroom]
          exact fun he => hr (Option.some.inj he)
      · intro op' done' todo' hc' hop'
        rw [hop] at hop'
        cases hop'
        exact hr rfl
  | @drop i r' op done todo hop =>
    have hlog := @log_other s (.fail i) (by rintro _ ⟨⟩) r
    by_cases hsec : r' = r ∧ op.isCreate = false
    · obtain ⟨rfl, hc⟩ := hsec
      exact h.dropped hs hi hop hc (hl op r' done todo hop hc)
    · refine h.still hs hi rfl hlog (section_iff rfl ?_ (not_section (ended_not_section op r' .failed)))
      intro op' done' todo' hc' hop'
      rw [hop] at hop'
      cases hop'
      exact hsec ⟨rfl, hc'⟩
  | expire r' =>
    exact h.still hs hi rfl (log_other (by rintro _ ⟨⟩) r) fun _ _ _ _ _ => Iff.rfl

theorem serialised_start (r : Nat) : Serialised r [] start where
  run := .start
  inv := inv_start
  held := rfl
  rest := fun _ => rfl
  busy := by
    rintro i op done todo ⟨⟩

theorem run_serialised (h : Run (Guarded Step Lasting) start es s) (r : Nat) : Serialised r es s :=
  run_history (I := Serialised r) h (serialised_start r) fun ih hs => ih.step hs.1 hs.2

-- Where an operation stands that counts as successful: its caller has its result, or will have it.
def Pc.Counts (r : Nat) (op : Op) : Pc → Prop
  | .release op' r' out => op' = op ∧ r' = r ∧ out = .ok ∧ op.isCreate = false
  | .finished op' out => op' = op ∧ (op.isCreate = false → out = .ok)
  | .body op' r' done _ => op' = op ∧ r' = r ∧ done ≠ [] ∧ op.isCreate = true
  | _ => False

structure Returned (r : Nat) (es : List Event) (s : State) : Prop where
  run : Run Step start es s
  said : ∀ i op, s.ops i = some (.release op r .ok) → (i, op) ∈ successes r es
  once : ((successes r es).map Prod.fst).Nodup
  counted : ∀ i op, (i, op) ∈ successes r es → ∃ pc, s.ops i = some pc ∧ pc.Counts r op

theorem Returned.still (h : Returned r es s) (hs : Step s e t) {i : Nat} {pc : Pc}
    (hops : t.ops = Function.update s.ops i (some pc)) (hlog : succeeded r s e = [])
    (hsaid : ∀ op, pc ≠ .release op r .ok) (hmoved : ∀ old op, s.ops i = some old → old.Counts r op → pc.Counts r op) :
    Returned r (es ++ [e]) t := by
  have hsucc : successes r (es ++ [e]) = successes r es := by
    rw [successes_snoc h.run, hlog, List.append_nil]
  refine ⟨h.run.next hs, ?_, ?_, ?_⟩
  · intro j op hop
    rw [hsucc]
    rcases ops_update hops hop with ⟨-, hpc⟩ | ⟨-, hop⟩
    · exact absurd hpc.symm (hsaid op)
    · exact h.said j op hop
  · rw [hsucc]
    exact h.once
  · intro j op hmem
    rw [hsucc] at hmem
    obtain ⟨old, hold, hcounts⟩ := h.counted j op hmem
    rw [hops]
    by_cases hj : j = i
    · subst hj
      exact ⟨pc, Function.update_self .., hmoved old op hold hcounts⟩
    · exact ⟨old, (Function.update_of_ne hj ..).trans hold, hcounts⟩

theorem Returned.more (h : Returned r es s) (hs : Step s e t) {i : Nat} {op : Op} {old pc : Pc}
    (hold : s.ops i = some old) (hops : t.ops = Function.update s.ops i (some pc))
    (hlog : succeeded r s e = [(i, op)]) (hnot : ∀ op', ¬ old.Counts r op') (hpc : pc.Counts r op) :
    Returned r (es ++ [e]) t := by
  have hsucc : successes r (es ++ [e]) = successes r es ++ [(i, op)] := by
    rw [successes_snoc h.run, hlog]
  have hfresh : ∀ op', (i, op') ∉ successes r es := by
    intro op' hmem
    obtain ⟨pc', hpc', hcounts⟩ := h.counted i op' hmem
    rw [hold] at hpc'
    exact hnot op' (Option.some.inj hpc' ▸ hcounts)
  refine ⟨h.run.next hs, ?_, ?_, ?_⟩
  · intro j op' hop
    rw [hsucc]
    rcases ops_update hops hop with ⟨rfl, rfl⟩ | ⟨-, hop⟩
    · rw [hpc.1]
      exact List.mem_append_right _ (List.mem_singleton.mpr rfl)
    · exact List.mem_append_left _ (h.said j op' hop)
  · rw [hsucc, List.map_append, List.map_cons, List.map_nil, ← List.concat_eq_append, List.nodup_concat]
    refine ⟨fun hmem => ?_, h.once⟩
    obtain ⟨⟨j, op'⟩, hx, rfl⟩ := List.mem_map.mp hmem
    exact hfresh op' hx
  · intro j op' hmem
    rw [hsucc] at hmem
    rw [hops]
    by_cases hj : j = i
    · subst hj
      rcases List.mem_append.mp hmem with hin | hlast
      · exact absurd hin (hfresh op')
      · cases List.mem_singleton.mp hlast
        exact ⟨pc, Function.update_self .., hpc⟩
    · rcases List.mem_append.mp hmem with hin | hlast
      · obtain ⟨pc', hpc', hcounts⟩ := h.counted j op' hin
        exact ⟨pc', (Function.update_of_ne hj ..).trans hpc', hcounts⟩
      · cases List.mem_singleton.mp hlast
        exact absurd rfl hj

theorem not_said {pc : Pc} (h : pc.said = false) : ∀ op, pc ≠ .release op r .ok := by
  rintro op rfl
  cases h

theorem ended_ok {op : Op} (r : Nat) (h : op.isCreate = false) : ended op r .ok = .release op r .ok := by
  cases op with
  | create account req now => cases h
  | _ => rfl

theorem counts_ended_create {op : Op} (r' : Nat) (out : Outcome) (h : op.isCreate = true) :
    (ended op r' out).Counts r op := by
  cases op with
  | create account req now => exact ⟨rfl, nofun⟩
  | _ => cases h

theorem counts_bodyPc_create {op : Op} {done todo : List Cmd} (hd : done ≠ []) (h : op.isCreate = true) :
    (bodyPc op r done todo).Counts r op := by
  cases todo with
  | nil => exact counts_ended_create r .ok h
  | cons c todo => exact ⟨rfl, rfl, hd, h⟩

theorem Returned.step (h : Returned r es s) (hs : Step s e t) : Returned r (es ++ [e]) t := by
  cases turn_step hs with
  | @called i op hop hpc hout =>
    refine h.still hs rfl (log_other (by rintro _ ⟨⟩) r).2 (not_said hout) ?_
    intro old op' hold
    rw [hop] at hold
    cases hold
  | @aside _ i pc pc' _ hop ha hm hlog =>
    refine h.still hs hm.ops (hlog r).2 (not_said ha.unsaid) ?_
    intro old op hold hcounts
    rw [hop] at hold
    cases hold
    cases pc with
    | release op' r' out =>
      obtain ⟨rfl, -, rfl, -⟩ := hcounts
      rcases ha.kept with hk | ⟨_, _, _, hk, rfl⟩
      · cases hk
      · cases hk
        exact ⟨rfl, fun _ => rfl⟩
    | finished op' out => cases ha.running
    | body op' r' done todo => cases ha.old
    | _ => exact absurd hcounts id
  | @enter i r' op cmds hop hb =>
    have hlog := succeeded_load (r := r) hop hb
    by_cases hnow : cmds = [] ∧ r' = r ∧ op.isCreate = false
    · obtain ⟨rfl, rfl, hc⟩ := hnow
      rw [if_pos ⟨rfl, rfl, hc⟩] at hlog
      refine h.more hs hop rfl hlog (fun _ => id) ?_
      rw [bodyPc, ended_ok r' hc]
      exact ⟨rfl, rfl, rfl, hc⟩
    · rw [if_neg hnow] at hlog
      refine h.still hs rfl hlog ?_ ?_
      · intro op' hpc
        cases cmds with
        | nil =>
          cases op with
          | create => cases hpc
          | _ =>
            cases hpc
            exact hnow ⟨rfl, rfl, rfl⟩
        | cons c cmds => cases hpc
      · intro old op' hold hcounts
        rw [hop] at hold
        cases hold
        exact absurd hcounts id
  | @write i r' op done todo c hop =>
    have hlog := succeeded_body (r := r) hop
    by_cases hnow : r' = r ∧ if op.isCreate then done = [] else todo = []
    · rw [if_pos hnow] at hlog
      obtain ⟨rfl, hnow⟩ := hnow
      cases hc : op.isCreate with
      | true =>
        rw [hc] at hnow
        refine h.more hs hop ops_wrote hlog ?_ (counts_bodyPc_create (by simp) hc)
        rintro op' ⟨-, -, hd, -⟩
        exact hd hnow
      | false =>
        rw [hc] at hnow
        obtain rfl : todo = [] := hnow
        refine h.more hs hop ops_wrote hlog ?_ ?_
        · rintro op' ⟨rfl, -, -, hc'⟩
          rw [hc] at hc'
          cases hc'
        · rw [bodyPc, ended_ok r' hc]
          exact ⟨rfl, rfl, rfl, hc⟩
    · rw [if_neg hnow] at hlog
      refine h.still hs ops_wrote hlog ?_ ?_
      · intro op' hpc
        cases todo with
        | nil =>
          cases op with
          | create => cases hpc
          | _ =>
            cases hpc
            exact hnow ⟨rfl, rfl⟩
        | cons c' todo => cases hpc
      · intro old op' hold hcounts
        rw [hop] at hold
        cases hold
        obtain ⟨rfl, rfl, -, hc⟩ := hcounts
        exact counts_bodyPc_create (by simp) hc
  | @drop i r' op done todo hop =>
    refine h.still hs rfl (log_other (by rintro _ ⟨⟩) r).2 ?_ ?_
    · intro op' hpc
      cases op <;> cases hpc
    · intro old op' hold hcounts
      rw [hop] at hold
      cases hold
      obtain ⟨rfl, rfl, -, hc⟩ := hcounts
      exact counts_ended_create r' .failed hc
  | expire r' =>
    have hsucc : successes r (es ++ [.expire r']) = successes r es := by
      rw [successes_snoc h.run]
      exact List.append_nil _
    exact ⟨h.run.next hs, hsucc.symm ▸ h.said, hsucc.symm ▸ h.once, hsucc.symm ▸ h.counted⟩

theorem run_returned (h : Run Step start es s) (r : Nat) : Returned r es s :=
  run_history (I := Returned r) h
    ⟨.start, by rintro i op ⟨⟩, List.nodup_nil, fun i op h => absurd h List.not_mem_nil⟩
    fun ih hs => ih.step hs

theorem mutations_serial (h : Run (Guarded Step Lasting) start es s) (r : Nat) :
    s.rooms r = current (stored r es) ∧
    (AtRest s r → serial r ((successes r es).map Prod.snd) = some (stored r es)) ∧
    (∀ i op done todo, s.ops i = some (.body op r done todo) → op.isCreate = false →
      ∃ recs, serial r ((successes r es).map Prod.snd) = some recs ∧
        stored r es = recs ++ stores r done) ∧
    ((successes r es).map Prod.fst).Nodup ∧
    (∀ i op, s.ops i = some (.release op r .ok) → (i, op) ∈ successes r es) ∧
    ∀ i op, (i, op) ∈ successes r es → op.isCreate = false →
      s.ops i = some (.release op r .ok) ∨ s.ops i = some (.finished op .ok) := by
  have hser := run_serialised h r
  have hret := run_returned (guarded_run h) r
  refine ⟨hser.held, hser.rest, ?_, hret.once, hret.said, ?_⟩
  · intro i op done todo hop hc
    obtain ⟨recs, hserial, -, hrecs⟩ := hser.busy i op done todo hop hc
    exact ⟨recs, hserial, hrecs⟩
  · intro i op hmem hc
    obtain ⟨pc, hpc, hcounts⟩ := hret.counted i op hmem
    cases pc with
    | release op' r' out =>
      obtain ⟨rfl, rfl, rfl, -⟩ := hcounts
      exact Or.inl hpc
    | finished op' out =>
      obtain ⟨rfl, hout⟩ := hcounts
      rw [hout hc] at hpc
      exact Or.inr hpc
    | body op' r' done todo =>
      obtain ⟨-, -, -, hc'⟩ := hcounts
      rw [hc] at hc'
      cases hc'
    | _ => exact absurd hcounts id

def Event.smooth : Event → Bool
  | .fail _ => false
  | .expire _ => false
  | _ => true

theorem lasting_of_smooth (h : Run (Guarded Step fun _ e => e.smooth = true) start es s) :
    Run (Guarded Step Lasting) start es s := by
  have hkept : Run (Guarded Step fun _ e => (∀ r, e ≠ .expire r) ∧ e.smooth = true) start es s :=
    run_mono h fun hs => ⟨hs.1, fun r he => Bool.false_ne_true ((congrArg Event.smooth he).symm.trans hs.2), hs.2⟩
  refine run_mono (calm_of_run hkept) fun {s e t} hs => ⟨hs.1, ?_⟩
  cases e with
  | fail i => cases hs.2.2
  | _ => exact hs.2.1

def rename (name : String) : ChangeReq := ⟨1, some name, none, none, none, none, none, none, none, none, none⟩

-- A change and a setReady of the owner; the second waits for the lease of the first.
def waiting : List Event :=
  [.call 0 (.create (guest 1) plain 0), .next 0, .next 0, .next 0, .next 0,
    .call 1 (.change 1 (rename "a")), .call 2 (.setReady 1 true), .next 2, .next 1, .next 1, .next 1,
    .next 1, .next 2, .next 2, .next 2, .next 2]

theorem mutations_serial_waiting : ∃ s, Run (Guarded Step Lasting) start waiting s ∧
    s.rooms 1 = current (stored 1 waiting) ∧ (stored 1 waiting).length = 3 ∧
    serial 1 ((successes 1 waiting).map Prod.snd) = some (stored 1 waiting) := by
  have hrun : (waiting.foldlM (fun s e => if e.smooth = true then step s e else none) start).isSome := by
    decide
  obtain ⟨s, hs⟩ := Option.isSome_iff_exists.mp hrun
  have hlast : Run (Guarded Step Lasting) start waiting s := lasting_of_smooth (run_of_checked hs)
  have hrest : AtRest s 1 := by
    intro i op done todo hop
    cases hs
    match i with
    | 0 => cases hop
    | 1 => cases hop
    | 2 => cases hop
    | i + 3 => cases hop
  exact ⟨s, hlast, (mutations_serial hlast 1).1, by decide, (mutations_serial hlast 1).2.1 hrest⟩

-- The lease of the change expires after its load, and a setReady runs before its write.
def outlived : List Event :=
  [.call 0 (.create (guest 1) plain 0), .next 0, .next 0, .next 0, .next 0,
    .call 1 (.change 1 (rename "a")), .next 1, .next 1, .expire 1,
    .call 2 (.setReady 1 true), .next 2, .next 2, .next 2, .next 2, .next 2, .next 1, .next 1]

theorem update_lost : ∃ s, Run Step start outlived s ∧ AtRest s 1 ∧
    (∀ i < 3, ∃ op, s.ops i = some (.finished op .ok)) ∧
    ∀ ops, ops.Perm ((successes 1 outlived).map Prod.snd) → serial 1 ops ≠ some (stored 1 outlived) := by
  have hrun : (outlived.foldlM step start).isSome := by decide
  obtain ⟨s, hs⟩ := Option.isSome_iff_exists.mp hrun
  refine ⟨s, run_of_foldlM hs, ?_, ?_, ?_⟩
  · intro i op done todo hop
    cases hs
    match i with
    | 0 => cases hop
    | 1 => cases hop
    | 2 => cases hop
    | i + 3 => cases hop
  · intro i hi
    cases hs
    match i with
    | 0 => exact ⟨_, rfl⟩
    | 1 => exact ⟨_, rfl⟩
    | 2 => exact ⟨_, rfl⟩
  · have hall : ∀ ops ∈ ((successes 1 outlived).map Prod.snd).permutations',
        serial 1 ops ≠ some (stored 1 outlived) := by
      decide
    exact fun ops hperm => hall ops (List.mem_permutations'.mpr hperm)

end Rooms
