import Madoka.Auth.Handoff
import Madoka.Lib.Latest

namespace Auth.Store

variable {b : Backend} {s s' : Store} {now : Int} {r : Pairing}

-- A pending row of the later store was there, and pending, before.
def Shrinks (s s' : Store) : Prop :=
  ∀ r, s'.row = some r → r.status = .pending → s.row = some r

theorem shrinks_mark {f : Pairing → Pairing} (hf : ∀ r, (f r).status ≠ .pending) : Shrinks s (s.mark b now f) := by
  intro r hr hp
  unfold Store.mark at hr
  split at hr
  · split at hr
    · obtain rfl := Option.some.inj hr
      exact absurd hp (hf _)
    · exact hr
  · exact hr

theorem shrinks_expire : Shrinks s (s.expire now) := by
  intro r hr hp
  unfold Store.expire at hr
  split at hr
  · split at hr
    · cases hr
    · exact hr
  · exact hr

theorem shrinks_read {p : Nat} : Shrinks s (s.read b now p) := by
  intro r hr hp
  unfold Store.read at hr
  split at hr
  · exact hr
  · split at hr
    · exact hr
    · split at hr
      · exact hr
      · exact hr

theorem shrinks_take {p : Nat} : Shrinks s (s.take b now p) := by
  have hrest : ∀ (hit : Bool) (r : Pairing), (if hit then none else s.row) = some r → s.row = some r := by
    intro hit r hr
    cases hit with
    | false => exact hr
    | true => cases hr
  intro r hr hp
  unfold Store.take at hr
  split at hr
  · exact hr
  · dsimp only at hr
    split at hr
    · exact hrest _ r hr
    · split at hr
      · exact hrest _ r hr
      · exact hrest _ r hr

theorem mark_settles {f : Pairing → Pairing} (hf : ∀ r, (f r).status ≠ .pending) (hr : b.sees now s.row = some r) :
    ∀ r', (s.mark b now f).row = some r' → r'.status ≠ .pending := by
  intro r' hr'
  unfold Store.mark at hr'
  rw [hr] at hr'
  dsimp only at hr'
  split at hr'
  · obtain rfl := Option.some.inj hr'
    exact hf r
  · rename_i hp
    rw [(mem_of_sees hr).1] at hr'
    obtain rfl := Option.some.inj hr'
    exact hp

end Auth.Store

namespace SignIn

open Lib Utf16

namespace Mark

def mints (pairId : Text) : Mark → Prop
  | .minted p _ _ _ => p = pairId
  | _ => False

def completes (pairId : Text) : Mark → Prop
  | .completed _ p _ => p = pairId
  | _ => False

end Mark

def Open (pairId : Text) (log : List Mark) : Prop :=
  Latest (fun m => m.mints pairId ∨ m.completes pairId) (Mark.mints pairId) log

namespace System

variable {K : Keys} {b : Auth.Backend} {v v' : System} {e : Event} {c : Nat} {p : Text} {m : Mark}

structure Single (v : System) : Prop where
  pending : ∀ p r, (v.stores p).row = some r → r.status = .pending → Open p v.log
  completed : Each (fun before m => ∀ p, m.completes p → Open p before) v.log

namespace Single

theorem start : Single start where
  pending := fun _ _ h => absurd h (by simp [System.start, Auth.Store.empty])
  completed := each_nil

theorem quiet (h : Single v) {l : List Mark} (hlog : v'.log = v.log ++ l)
    (hl : ∀ m ∈ l, ∀ p, ¬(m.mints p ∨ m.completes p)) (hrows : ∀ p, (v.stores p).Shrinks (v'.stores p)) :
    Single v' where
  pending := fun p r hr hp => by
    rw [hlog]
    exact (h.pending p r (hrows p r hr hp) hp).append_other fun m hm => hl m hm p
  completed := by
    rw [hlog]
    refine each_append h.completed fun pre m post heq p hm => ?_
    have hmem : m ∈ l := by simp [heq]
    exact absurd (Or.inr hm) (hl m hmem p)

theorem put_shrinks {s : Auth.Store} (hs : (v.stores p).Shrinks s) (q : Text) :
    (v.stores q).Shrinks ((v.put p s).stores q) := by
  unfold System.put
  dsimp only
  rw [Function.update_apply]
  split
  · subst q
    exact hs
  · exact fun r hr _ => hr

theorem put (h : Single v) {s : Auth.Store} (hs : (v.stores p).Shrinks s) {stage : Option Stage} :
    Single ((v.put p s).goto c stage) :=
  h.quiet (List.append_nil _).symm (fun _ hm => absurd hm List.not_mem_nil) (put_shrinks hs)

theorem dialog (h : Single v) {u n : Text} {created t : Int} : Single (v.dialog p u n created t) := by
  unfold System.dialog
  split
  · exact h
  · unfold System.tell System.put
    refine ⟨fun q r hr hp => ?_, ?_⟩
    · dsimp only at hr ⊢
      rw [Function.update_apply] at hr
      split at hr
      · subst q
        exact Latest.snoc rfl
      · rename_i hne
        refine (h.pending q r hr hp).snoc_other ?_
        rintro (heq | hfalse)
        · exact hne heq.symm
        · exact hfalse
    · exact each_snoc.mpr ⟨h.completed, fun q hq => absurd hq id⟩

theorem markCompleted (h : Single v) {url : Text} {now : Int} : Single (v.markCompleted b c p url now) := by
  have hkeep : (v.stores p).Shrinks ((v.stores p).markCompleted b now url) :=
    Auth.Store.shrinks_mark fun r => by simp [Auth.Pairing.complete]
  unfold System.markCompleted
  dsimp only
  split
  · rename_i r hr
    split
    · rename_i hpending
      have hopen := h.pending p r (Auth.mem_of_sees hr).1 hpending
      unfold System.tell System.goto System.put
      refine ⟨fun q r' hr' hp' => ?_, ?_⟩
      · dsimp only at hr' ⊢
        rw [Function.update_apply] at hr'
        split at hr'
        · subst q
          refine absurd hp' (Auth.Store.mark_settles (fun r => ?_) hr r' hr')
          simp [Auth.Pairing.complete]
        · rename_i hne
          refine (h.pending q r' hr' hp').snoc_other ?_
          rintro (hfalse | heq)
          · exact hfalse
          · exact hne heq.symm
      · refine each_snoc.mpr ⟨h.completed, fun q hq => ?_⟩
        obtain rfl : p = q := hq
        exact hopen
    · exact h.put hkeep
  · exact h.put hkeep

theorem tell (h : Single v) {stage : Option Stage} (hm : ∀ p, ¬(m.mints p ∨ m.completes p)) :
    Single ((v.goto c stage).tell m) := by
  refine h.quiet rfl (fun x hx => ?_) fun _ r hr _ => hr
  rw [List.mem_singleton.mp hx]
  exact hm

theorem goto (h : Single v) {stage : Option Stage} : Single (v.goto c stage) :=
  h.quiet (List.append_nil _).symm (fun _ hm => absurd hm List.not_mem_nil) fun _ _ hr _ => hr

theorem callback (h : Single v) {state : List UInt8} {now : Int} : Single (v.callback K state now) := by
  unfold System.callback
  split
  · have hnext : Single { v with next := v.next + 1 } := ⟨h.pending, h.completed⟩
    exact hnext.tell fun p => by simp [Mark.mints, Mark.completes]
  · exact h

theorem findByPairId (h : Single v) {uri : Text} {now : Int} : Single (v.findByPairId b c uri p now) := by
  unfold System.findByPairId
  split
  · split
    · exact h.tell fun p => by simp [Mark.mints, Mark.completes]
    · exact h.goto
  · exact h.goto

theorem exchangeCode (h : Single v) {uri : Text} {user : Option Text} : Single (v.exchangeCode c uri p user) := by
  cases user with
  | none => exact h.goto
  | some user => exact h.tell fun p => by simp [Mark.mints, Mark.completes]

theorem completeDiscordLogin (h : Single v) {uri user : Text} {flow : Flow} :
    Single (v.completeDiscordLogin K c uri p user flow) := by
  cases flow with
  | ok ticket => exact h.tell fun p => by simp [Mark.mints, Mark.completes]
  | renovation => exact h.goto
  | threw => exact h.goto

theorem poll (h : Single v) {op : Auth.Op} {now : Int} (hstep : v.poll b p op now = some v') : Single v' := by
  have hreplies : ∀ (s : Auth.Store) (l : List Auth.Answer), (v.stores p).Shrinks s →
      Single { v.put p s with log := v.log ++ l.map fun a => Mark.polled p a.reply } := by
    intro s l hs
    refine h.quiet rfl (fun m hm q => ?_) (put_shrinks hs)
    obtain ⟨a, -, rfl⟩ := List.mem_map.mp hm
    simp [Mark.mints, Mark.completes]
  unfold System.poll at hstep
  dsimp only at hstep
  split at hstep
  · cases hstep
    exact hreplies _ _ Auth.Store.shrinks_read
  · cases hstep
    exact hreplies _ _ Auth.Store.shrinks_take
  · cases hstep
    exact h.quiet (List.append_nil _).symm (fun m hm => absurd hm List.not_mem_nil)
      (put_shrinks Auth.Store.shrinks_expire)
  · cases hstep

theorem step (h : Single v) (hs : Step K b v e v') : Single v' := by
  unfold Step System.step at hs
  cases e with
  | dialog p u n created t =>
    cases hs
    exact h.dialog
  | callback state t =>
    cases hs
    exact h.callback
  | findByPairId c t =>
    dsimp only at hs
    split at hs
    · cases hs
      exact h.findByPairId
    · cases hs
  | exchangeCode c user =>
    dsimp only at hs
    split at hs
    · cases hs
      exact h.exchangeCode
    · cases hs
  | completeDiscordLogin c flow =>
    dsimp only at hs
    split at hs
    · cases hs
      exact h.completeDiscordLogin
    · cases hs
  | mark c t =>
    dsimp only at hs
    split at hs
    · cases hs
      exact h.markCompleted
    · cases hs
      exact h.put (Auth.Store.shrinks_mark fun r => by simp [Auth.Pairing.fail])
    · cases hs
  | giveUp c =>
    dsimp only at hs
    split at hs
    · cases hs
      exact h.goto
    · cases hs
  | poll p op t => exact h.poll hs

end Single

-- In every run a pairing is completed only while its last dialog has had no completion: of the
-- callbacks that race for one pairing a single one hands its URL over.
theorem completed_once {es : List Event} (h : Run (Step K b) start es v) :
    Each (fun before m => ∀ p, m.completes p → Open p before) v.log :=
  (run_invariant h Single.start Single.step).completed

-- One state is presented twice, and both callbacks come to the end of the sign-in.
def race : List Event :=
  let state := signState visitKeys successUri visitPair (text "AAECAwQFBgcICQoL") 1700000000
  [.dialog visitPair successUri (text "AAECAwQFBgcICQoL") 1700000000000 1700000000,
    .callback state 1700000099, .callback state 1700000099,
    .findByPairId 0 1700000099000, .findByPairId 1 1700000099000,
    .exchangeCode 0 (some (text "42")), .exchangeCode 1 (some (text "43")),
    .completeDiscordLogin 0 (.ok visitTicket),
    .completeDiscordLogin 1 (.ok ⟨text "10000002", text "77aa", 1700000100⟩),
    .mark 1 1700000100000, .mark 0 1700000100000]

theorem race_completed_once : ∃ v, Run (Step visitKeys .mongo) start race v ∧
    (told 0 v.log).length = 4 ∧ (told 1 v.log).length = 5 ∧
      Each (fun before m => ∀ p, m.completes p → Open p before) v.log := by
  have hrun : (race.foldlM (step visitKeys .mongo) start).map
      (fun v => ((told 0 v.log).length, (told 1 v.log).length)) = some (4, 5) := by decide +kernel
  obtain ⟨v, hv, hlen⟩ := Option.map_eq_some_iff.mp hrun
  obtain ⟨hzero, hone⟩ := Prod.mk.inj hlen
  exact ⟨v, run_of_foldlM hv, hzero, hone, completed_once (run_of_foldlM hv)⟩

end System

end SignIn
