import Mathlib.Data.Fintype.Basic
import Madoka.Sessions.Online

namespace Sessions

open Lib Function

-- What a gateway sends to Redis over its connection: setPresence and clearPresence of the bus,
-- the hdel of the matchmaker's cancel, and the hget with which the leave of the rooms starts.
inductive Request where
  | setPresence (uid : Nat)
  | clearPresence (uid : Nat)
  | cancel (uid : Nat)
  | roomOf (uid : Nat)
  deriving DecidableEq, Repr

namespace Request

def uid : Request → Nat
  | setPresence uid => uid
  | clearPresence uid => uid
  | cancel uid => uid
  | roomOf uid => uid

def cleans : Request → Bool
  | setPresence _ => false
  | _ => true

end Request

-- Redis as the gateways use it here, what is on the way to it from each of them, and the accounts
-- whose leave has seen a room and has yet to get its lock.
structure Cluster (N : Type) where
  gateways : N → State
  channel : N → List Request
  leaving : N → List Nat
  presence : Nat → Option N
  queued : Nat → Bool
  members : Nat → Option Nat

inductive Turn (N : Type) where
  | gateway (n : N) (a : Event)
  | refresh (n : N) (uids : List Nat)
  | redis (n : N)
  | leave (n : N) (uid : Nat) (locked : Bool)
  | lobby (queued : Nat → Bool) (members : Nat → Option Nat)

def sent (w : World) (st : State) : Event → List Request
  | .gate s row _ =>
    match (st.conns s).bind fun c => c.await.account with
    | some account => if isBanned w account row then [] else [.setPresence account.uid]
    | none => []
  | .close s =>
    match (st.conns s).bind fun c => c.entry with
    | some e =>
      if (st.sessions e.account.uid).map Entry.socket = some s then
        [.cancel e.account.uid, .roomOf e.account.uid, .clearPresence e.account.uid]
      else []
    | none => []
  | _ => []

namespace Cluster

variable {N : Type} [DecidableEq N]

def idle : Cluster N :=
  ⟨fun _ => start, fun _ => [], fun _ => [], fun _ => none, fun _ => false, fun _ => none⟩

def send (k : Cluster N) (n : N) (qs : List Request) : Cluster N :=
  { k with channel := update k.channel n (k.channel n ++ qs) }

def apply (k : Cluster N) (n : N) : Request → Cluster N
  | .setPresence uid => { k with presence := update k.presence uid (some n) }
  | .clearPresence uid => { k with presence := update k.presence uid none }
  | .cancel uid => { k with queued := update k.queued uid false }
  | .roomOf uid =>
    if (k.members uid).isSome then { k with leaving := update k.leaving n (uid :: k.leaving n) } else k

-- The refresh takes the keys of the table; the lobby is what the matchmaker and the players'
-- requests make of the queue and the rooms.
def step (w : World) (k : Cluster N) : Turn N → Option (Cluster N)
  | .gateway n a =>
    (Sessions.step w (k.gateways n) a).map fun st =>
      { k.send n (sent w (k.gateways n) a) with gateways := update k.gateways n st }
  | .refresh n uids =>
    if ∀ uid ∈ uids, ((k.gateways n).sessions uid).isSome then
      some (k.send n (uids.map Request.setPresence))
    else none
  | .redis n =>
    match k.channel n with
    | [] => none
    | q :: qs => some ({ k with channel := update k.channel n qs }.apply n q)
  | .leave n uid locked =>
    if uid ∈ k.leaving n then
      some { k with
        leaving := update k.leaving n ((k.leaving n).erase uid)
        members := if locked then update k.members uid none else k.members }
    else none
  | .lobby queued members => some { k with queued := queued, members := members }

def Step (w : World) (k : Cluster N) (t : Turn N) (k' : Cluster N) : Prop := k.step w t = some k'

end Cluster

variable {w : World} {uid s now : Nat} {st st' : State} {c : Conn} {a : Event}

theorem sent_admits (ha : Admits w uid st a) : sent w st a = [.setPresence uid] := by
  cases a with
  | gate s row now =>
    obtain ⟨c, hc, account, haccount, rfl, hgate⟩ := ha
    rw [sent, Option.mem_def.mp hc, Option.bind_some, Option.mem_def.mp haccount]
    dsimp only
    rw [hgate]
    rfl
  | _ => exact ha.elim

theorem sent_drops (hd : Drops uid st a) :
    sent w st a = [.cancel uid, .roomOf uid, .clearPresence uid] := by
  cases a with
  | close s =>
    obtain ⟨c, hc, e, he, rfl, hin⟩ := hd
    rw [sent, Option.mem_def.mp hc, Option.bind_some, Option.mem_def.mp he]
    dsimp only
    rw [if_pos hin]
  | _ => exact hd.elim

theorem sent_other (ha : ¬ Admits w uid st a) (hd : ¬ Drops uid st a) : ∀ q ∈ sent w st a, q.uid ≠ uid := by
  intro q hq hu
  unfold sent at hq
  split at hq
  · rename_i s row now
    split at hq
    · rename_i account haccount
      obtain ⟨c, hc, hawait⟩ := Option.bind_eq_some_iff.mp haccount
      split at hq
      · cases hq
      · rename_i hgate
        obtain rfl := List.mem_singleton.mp hq
        exact ha ⟨c, hc, account, hawait, hu, Bool.eq_false_iff.mpr hgate⟩
    · cases hq
  · rename_i s
    split at hq
    · rename_i e he
      obtain ⟨c, hc, hentry⟩ := Option.bind_eq_some_iff.mp he
      split at hq
      · rename_i hin
        have hkey : e.account.uid = uid := by
          rcases List.mem_cons.mp hq with rfl | hq
          · exact hu
          · rcases List.mem_cons.mp hq with rfl | hq
            · exact hu
            · obtain rfl := List.mem_singleton.mp hq
              exact hu
        exact hd ⟨c, hc, e, hentry, hkey, hkey ▸ hin⟩
      · cases hq
    · cases hq
  · cases hq

def Request.word (uid : Nat) : Request → Option Bool
  | .setPresence uid' => if uid' = uid then some true else none
  | .clearPresence uid' => if uid' = uid then some false else none
  | _ => none

def lastWord (uid : Nat) : List Request → Option Bool
  | [] => none
  | q :: qs => (lastWord uid qs).or (q.word uid)

theorem lastWord_append (qs qs' : List Request) :
    lastWord uid (qs ++ qs') = (lastWord uid qs').or (lastWord uid qs) := by
  induction qs with
  | nil => simp [lastWord]
  | cons q qs ih => rw [List.cons_append, lastWord, lastWord, ih, Option.or_assoc]

theorem word_none {q : Request} (h : q.uid ≠ uid) : q.word uid = none := by
  cases q with
  | setPresence uid' => exact if_neg h
  | clearPresence uid' => exact if_neg h
  | cancel uid' => rfl
  | roomOf uid' => rfl

theorem lastWord_none {qs : List Request} (h : ∀ q ∈ qs, q.uid ≠ uid) : lastWord uid qs = none := by
  induction qs with
  | nil => rfl
  | cons q qs ih =>
    rw [lastWord, ih fun q' hq' => h q' (List.mem_cons_of_mem q hq'), word_none (h q List.mem_cons_self)]
    rfl

theorem lastWord_refresh {uids : List Nat} {b : Bool}
    (h : lastWord uid (uids.map Request.setPresence) = some b) : b = true ∧ uid ∈ uids := by
  induction uids with
  | nil => cases h
  | cons uid' uids ih =>
    rw [List.map_cons, lastWord] at h
    cases hrest : lastWord uid (uids.map Request.setPresence) with
    | some b' =>
      rw [hrest] at h
      obtain ⟨hb, hmem⟩ := ih (hrest.trans h)
      exact ⟨hb, List.mem_cons_of_mem uid' hmem⟩
    | none =>
      rw [hrest, Option.none_or, Request.word] at h
      split at h
      · rename_i hu
        exact ⟨(Option.some.inj h).symm, hu ▸ List.mem_cons_self⟩
      · cases h

theorem clears_of_lastWord {qs : List Request} (h : lastWord uid qs = some false) :
    Request.clearPresence uid ∈ qs := by
  induction qs with
  | nil => cases h
  | cons q qs ih =>
    rw [lastWord] at h
    cases hrest : lastWord uid qs with
    | some b =>
      rw [hrest] at h
      exact List.mem_cons_of_mem q (ih (hrest.trans h))
    | none =>
      rw [hrest, Option.none_or] at h
      cases q with
      | clearPresence uid' =>
        rw [Request.word] at h
        split at h
        · rename_i hu
          rw [hu]
          exact List.mem_cons_self
        · cases h
      | setPresence uid' =>
        rw [Request.word] at h
        split at h
        · cases h
        · cases h
      | cancel uid' => cases h
      | roomOf uid' => cases h

section Presence

variable {N : Type} [DecidableEq N] {k k' : Cluster N} {t : Turn N} {m n : N}

-- A close of the account on the gateway has not been cleaned up yet.
def Cluster.Cleaning (k : Cluster N) (uid : Nat) (m : N) : Prop :=
  uid ∈ k.leaving m ∨ ∃ q ∈ k.channel m, q.cleans = true ∧ q.uid = uid

-- The account moves between gateways only when the old socket has closed and Redis is done with
-- that close.
def Orderly (w : World) (uid : Nat) (k : Cluster N) : Turn N → Prop
  | .gateway n a => TimelyFor w uid (k.gateways n) a ∧
      (Admits w uid (k.gateways n) a → ∀ m, m ≠ n → ¬ k.Cleaning uid m) ∧
      (Drops uid (k.gateways n) a → ∀ m, m ≠ n → ¬ Listed uid (k.gateways m))
  | _ => True

structure Sound (uid : Nat) (k : Cluster N) : Prop where
  held : ∀ n, Held uid (k.gateways n)
  shown : ∀ n, Shown uid (k.gateways n)
  apart : ∀ m, k.Cleaning uid m → ∀ n, n ≠ m → ¬ Listed uid (k.gateways n)
  last : ∀ n b, lastWord uid (k.channel n) = some b → (b = true ↔ Listed uid (k.gateways n))
  named : ∀ n, Listed uid (k.gateways n) → ∃ n', Listed uid (k.gateways n') ∧
    (lastWord uid (k.channel n') ≠ none ∨ k.presence uid = some n')

theorem cleaning_send {qs : List Request} (hq : ∀ q ∈ qs, q.cleans = true → q.uid ≠ uid)
    (h : (k.send n qs).Cleaning uid m) : k.Cleaning uid m := by
  rcases h with h | ⟨q, hq', hcleans, hu⟩
  · exact Or.inl h
  · refine Or.inr ⟨q, ?_, hcleans, hu⟩
    unfold Cluster.send at hq'
    dsimp only at hq'
    rw [update_apply] at hq'
    split at hq'
    · rename_i hm
      rcases List.mem_append.mp hq' with hold | hnew
      · exact hm ▸ hold
      · exact absurd hu (hq q hnew hcleans)
    · exact hq'

theorem sound_send {qs : List Request} (h : Sound uid k) (hheld : Held uid st') (hshown : Shown uid st')
    (hq : ∀ q ∈ qs, q.cleans = true → q.uid ≠ uid) (hkeep : Listed uid (k.gateways n) → Listed uid st')
    (hapart : Listed uid st' → Listed uid (k.gateways n) ∨ ∀ m, m ≠ n → ¬ k.Cleaning uid m)
    (hword : ∀ b, lastWord uid qs = some b → b = true ∧ Listed uid st')
    (hnew : Listed uid st' → Listed uid (k.gateways n) ∨ lastWord uid qs ≠ none) :
    Sound uid { k.send n qs with gateways := update k.gateways n st' } := by
  have hchannel : lastWord uid (update k.channel n (k.channel n ++ qs) n) =
      (lastWord uid qs).or (lastWord uid (k.channel n)) := by
    rw [update_self, lastWord_append]
  constructor
  · intro n'
    dsimp only
    rw [update_apply]
    split
    · exact hheld
    · exact h.held n'
  · intro n'
    dsimp only
    rw [update_apply]
    split
    · exact hshown
    · exact h.shown n'
  · intro m hm n' hne
    have hold : k.Cleaning uid m := cleaning_send hq hm
    dsimp only
    rw [update_apply]
    split
    · rename_i hn
      subst hn
      intro hl
      rcases hapart hl with hl | hclean
      · exact h.apart m hold n' hne hl
      · exact hclean m (Ne.symm hne) hold
    · exact h.apart m hold n' hne
  · intro n' b hb
    by_cases hn : n' = n
    · subst hn
      change lastWord uid (update k.channel n' (k.channel n' ++ qs) n') = some b at hb
      rw [hchannel] at hb
      dsimp only
      rw [update_self]
      cases hqs : lastWord uid qs with
      | some b' =>
        rw [hqs] at hb
        obtain ⟨hb', hl⟩ := hword b' hqs
        obtain rfl := Option.some.inj hb
        exact ⟨fun _ => hl, fun _ => hb'⟩
      | none =>
        rw [hqs, Option.none_or] at hb
        have hlast := h.last n' b hb
        exact ⟨fun hb' => hkeep (hlast.mp hb'), fun hl => hlast.mpr ((hnew hl).resolve_right (absurd hqs))⟩
    · change lastWord uid (update k.channel n (k.channel n ++ qs) n') = some b at hb
      rw [update_of_ne hn] at hb
      dsimp only
      rw [update_of_ne hn]
      exact h.last n' b hb
  · intro n' hl
    by_cases hfresh : Listed uid st' ∧ lastWord uid qs ≠ none
    · refine ⟨n, ?_, Or.inl ?_⟩
      · dsimp only
        rw [update_self]
        exact hfresh.1
      · change lastWord uid (update k.channel n (k.channel n ++ qs) n) ≠ none
        rw [hchannel]
        intro hnone
        exact hfresh.2 (Option.or_eq_none_iff.mp hnone).1
    · have hold : Listed uid (k.gateways n') := by
        dsimp only at hl
        rw [update_apply] at hl
        split at hl
        · rename_i hn
          rw [hn]
          exact (hnew hl).resolve_right fun hne => hfresh ⟨hl, hne⟩
        · exact hl
      obtain ⟨n'', hl'', hnamed⟩ := h.named n' hold
      refine ⟨n'', ?_, ?_⟩
      · dsimp only
        rw [update_apply]
        split
        · rename_i hn
          exact hkeep (hn ▸ hl'')
        · exact hl''
      · refine hnamed.imp (fun hne => ?_) id
        change lastWord uid (update k.channel n (k.channel n ++ qs) n'') ≠ none
        by_cases hn : n'' = n
        · subst hn
          rw [hchannel]
          intro hnone
          exact hne (Option.or_eq_none_iff.mp hnone).2
        · rw [update_of_ne hn]
          exact hne

theorem sound_drop {qs : List Request} (h : Sound uid k) (hheld : Held uid st') (hshown : Shown uid st')
    (hword : lastWord uid qs = some false) (hgone : ¬ Listed uid st')
    (halone : ∀ m, m ≠ n → ¬ Listed uid (k.gateways m)) :
    Sound uid { k.send n qs with gateways := update k.gateways n st' } := by
  have hnone : ∀ n', ¬ Listed uid (update k.gateways n st' n') := by
    intro n'
    rw [update_apply]
    split
    · exact hgone
    · rename_i hn
      exact halone n' hn
  constructor
  · intro n'
    dsimp only
    rw [update_apply]
    split
    · exact hheld
    · exact h.held n'
  · intro n'
    dsimp only
    rw [update_apply]
    split
    · exact hshown
    · exact h.shown n'
  · exact fun _ _ n' _ => hnone n'
  · intro n' b hb
    refine iff_of_false (fun hb' => ?_) (hnone n')
    change lastWord uid (update k.channel n (k.channel n ++ qs) n') = some b at hb
    rw [update_apply] at hb
    split at hb
    · rw [lastWord_append, hword, Option.some_or] at hb
      exact Bool.false_ne_true ((Option.some.inj hb).trans hb')
    · rename_i hn
      exact halone n' hn ((h.last n' b hb).mp hb')
  · exact fun n' hl => absurd hl (hnone n')

theorem apply_gateways {q : Request} : (k.apply n q).gateways = k.gateways := by
  cases q with
  | roomOf uid' =>
    unfold Cluster.apply
    dsimp only
    split <;> rfl
  | _ => rfl

theorem apply_channel {q : Request} : (k.apply n q).channel = k.channel := by
  cases q with
  | roomOf uid' =>
    unfold Cluster.apply
    dsimp only
    split <;> rfl
  | _ => rfl

theorem apply_leaving {q : Request} (h : uid ∈ (k.apply n q).leaving m) :
    uid ∈ k.leaving m ∨ m = n ∧ q = .roomOf uid := by
  cases q with
  | roomOf uid' =>
    unfold Cluster.apply at h
    dsimp only at h
    split at h
    · dsimp only at h
      rw [update_apply] at h
      split at h
      · rename_i hm
        rcases List.mem_cons.mp h with rfl | h
        · exact Or.inr ⟨hm, rfl⟩
        · exact Or.inl (hm ▸ h)
      · exact Or.inl h
    · exact Or.inl h
  | _ => exact Or.inl h

theorem apply_presence {q : Request} : (k.apply n q).presence uid =
    match q.word uid with
    | some true => some n
    | some false => none
    | none => k.presence uid := by
  cases q with
  | setPresence uid' =>
    simp only [Cluster.apply, Request.word, update_apply]
    by_cases hu : uid' = uid
    · rw [if_pos hu, if_pos hu.symm]
    · rw [if_neg hu, if_neg (Ne.symm hu)]
  | clearPresence uid' =>
    simp only [Cluster.apply, Request.word, update_apply]
    by_cases hu : uid' = uid
    · rw [if_pos hu, if_pos hu.symm]
    · rw [if_neg hu, if_neg (Ne.symm hu)]
  | cancel uid' => rfl
  | roomOf uid' =>
    unfold Cluster.apply
    dsimp only [Request.word]
    split <;> rfl

theorem sound_redis {q : Request} {qs : List Request} (h : Sound uid k) (hch : k.channel n = q :: qs) :
    Sound uid ({ k with channel := update k.channel n qs }.apply n q) := by
  have hcleaning : ∀ m, ({ k with channel := update k.channel n qs }.apply n q).Cleaning uid m →
      k.Cleaning uid m := by
    rintro m (hm | ⟨q', hq', hcleans, hu⟩)
    · rcases apply_leaving hm with hm | ⟨rfl, rfl⟩
      · exact Or.inl hm
      · exact Or.inr ⟨.roomOf uid, hch ▸ List.mem_cons_self, rfl, rfl⟩
    · refine Or.inr ⟨q', ?_, hcleans, hu⟩
      rw [apply_channel] at hq'
      dsimp only at hq'
      rw [update_apply] at hq'
      split at hq'
      · rename_i hm
        rw [hm, hch]
        exact List.mem_cons_of_mem q hq'
      · exact hq'
  have hrest : ∀ n', n' ≠ n → (({ k with channel := update k.channel n qs }.apply n q).channel n') =
      k.channel n' := by
    intro n' hn
    rw [apply_channel]
    exact update_of_ne hn _ _
  have hself : ({ k with channel := update k.channel n qs }.apply n q).channel n = qs := by
    rw [apply_channel]
    exact update_self _ _ _
  constructor
  · intro n'
    rw [apply_gateways]
    exact h.held n'
  · intro n'
    rw [apply_gateways]
    exact h.shown n'
  · intro m hm n' hne
    rw [apply_gateways]
    exact h.apart m (hcleaning m hm) n' hne
  · intro n' b hb
    rw [apply_gateways]
    by_cases hn : n' = n
    · subst hn
      rw [hself] at hb
      refine h.last n' b ?_
      rw [hch, lastWord, hb]
      rfl
    · rw [hrest n' hn] at hb
      exact h.last n' b hb
  · intro n' hl
    rw [apply_gateways] at hl ⊢
    obtain ⟨n₁, hl₁, hnamed⟩ := h.named n' hl
    have hlast : lastWord uid (k.channel n) = (lastWord uid qs).or (q.word uid) := by
      rw [hch, lastWord]
    rw [apply_presence]
    cases hword : q.word uid with
    | none =>
      refine ⟨n₁, hl₁, hnamed.imp (fun hne => ?_) id⟩
      by_cases hn : n₁ = n
      · subst hn
        rw [hself]
        rwa [hlast, hword, Option.or_none] at hne
      · rw [hrest n₁ hn]
        exact hne
    | some b =>
      have hn : Listed uid (k.gateways n) := by
        by_contra hn
        have hclears : Request.clearPresence uid ∈ k.channel n := by
          cases hb : lastWord uid (k.channel n) with
          | none =>
            rw [hlast, hword] at hb
            cases (Option.or_eq_none_iff.mp hb).2
          | some b' =>
            cases b' with
            | true => exact absurd ((h.last n true hb).mp rfl) hn
            | false => exact clears_of_lastWord hb
        exact h.apart n (Or.inr ⟨_, hclears, rfl, rfl⟩) n₁ (fun heq => hn (heq ▸ hl₁)) hl₁
      refine ⟨n, hn, ?_⟩
      rw [hself]
      cases hqs : lastWord uid qs with
      | some b' => exact Or.inl (by simp)
      | none =>
        rw [hqs, hword, Option.none_or] at hlast
        obtain rfl := (h.last n b hlast).mpr hn
        exact Or.inr rfl

theorem sound_leave {members : Nat → Option Nat} (h : Sound uid k) (uid' : Nat) :
    Sound uid { k with leaving := update k.leaving n ((k.leaving n).erase uid'), members := members } := by
  refine ⟨h.held, h.shown, fun m hm => h.apart m ?_, h.last, h.named⟩
  rcases hm with hm | hm
  · refine Or.inl ?_
    dsimp only at hm
    rw [update_apply] at hm
    split at hm
    · rename_i hmn
      exact hmn ▸ List.mem_of_mem_erase hm
    · exact hm
  · exact Or.inr hm

theorem sound_step (h : Sound uid k) (hs : k.Step w t k') (ho : Orderly w uid k t) : Sound uid k' := by
  cases t with
  | gateway n a =>
    obtain ⟨st', hst, rfl⟩ := Option.map_eq_some_iff.mp hs
    obtain ⟨htimely, halone, hdrop⟩ := ho
    have hheld : Held uid st' := held_step (h.held n) hst htimely
    have hshown : Shown uid st' := shown_step (h.shown n) (h.held n) hst
    by_cases ha : Admits w uid (k.gateways n) a
    · have hl := listed_admits ha hst
      rw [sent_admits ha]
      refine sound_send h hheld hshown ?_ (fun _ => hl) (fun _ => Or.inr (halone ha)) ?_ fun _ => Or.inr ?_
      · intro q hq hcleans
        obtain rfl := List.mem_singleton.mp hq
        cases hcleans
      · intro b hb
        simp only [lastWord, Request.word, if_true, Option.none_or] at hb
        exact ⟨(Option.some.inj hb).symm, hl⟩
      · simp [lastWord, Request.word]
    · by_cases hd : Drops uid (k.gateways n) a
      · rw [sent_drops hd]
        exact sound_drop h hheld hshown (by simp [lastWord, Request.word]) (listed_drops hd hst) (hdrop hd)
      · have hl := listed_other ha hd hst
        have hsent := sent_other ha hd
        refine sound_send h hheld hshown (fun q hq _ => hsent q hq) hl.mpr (fun h => Or.inl (hl.mp h)) ?_
          fun h => Or.inl (hl.mp h)
        intro b hb
        rw [lastWord_none hsent] at hb
        cases hb
  | refresh n uids =>
    simp only [Cluster.Step, Cluster.step] at hs
    split at hs
    · rename_i hin
      obtain rfl := Option.some.inj hs
      have hsound : Sound uid { k.send n (uids.map Request.setPresence) with
          gateways := update k.gateways n (k.gateways n) } :=
        sound_send h (h.held n) (h.shown n) ?_ id Or.inl ?_ Or.inl
      · rwa [update_eq_self] at hsound
      · intro q hq hcleans
        obtain ⟨uid', -, rfl⟩ := List.mem_map.mp hq
        cases hcleans
      · intro b hb
        obtain ⟨hb', hmem⟩ := lastWord_refresh hb
        exact ⟨hb', hin uid hmem⟩
    · cases hs
  | redis n =>
    simp only [Cluster.Step, Cluster.step] at hs
    split at hs
    · cases hs
    · rename_i q qs hch
      obtain rfl := Option.some.inj hs
      exact sound_redis h hch
  | leave n uid' locked =>
    simp only [Cluster.Step, Cluster.step] at hs
    split at hs
    · obtain rfl := Option.some.inj hs
      exact sound_leave h uid'
    · cases hs
  | lobby queued members =>
    obtain rfl := Option.some.inj hs
    exact ⟨h.held, h.shown, h.apart, h.last, h.named⟩

omit [DecidableEq N] in
theorem sound_idle : Sound uid (Cluster.idle : Cluster N) := by
  constructor
  · exact fun _ => held_start
  · exact fun _ => shown_start
  · rintro m (hm | ⟨q, hq, -⟩)
    · cases hm
    · cases hq
  · intro n b hb
    cases hb
  · intro n hl
    cases hl

structure Kept (uid : Nat) (k k' : Cluster N) : Prop where
  presence : k.presence uid ≠ none → k'.presence uid ≠ none
  queued : k.queued uid = true → k'.queued uid = true
  members : k'.members uid = k.members uid

theorem kept_redis (hs : k.Step w (.redis m) k') (hc : ¬ k.Cleaning uid m) : Kept uid k k' := by
  simp only [Cluster.Step, Cluster.step] at hs
  split at hs
  · cases hs
  · rename_i q qs hch
    obtain rfl := Option.some.inj hs
    have hq : q.cleans = true → q.uid ≠ uid := fun hcleans hu =>
      hc (Or.inr ⟨q, hch ▸ List.mem_cons_self, hcleans, hu⟩)
    cases q with
    | setPresence uid' =>
      refine ⟨fun hp => ?_, id, rfl⟩
      simp only [Cluster.apply, update_apply]
      split
      · exact Option.some_ne_none m
      · exact hp
    | clearPresence uid' =>
      refine ⟨fun hp => ?_, id, rfl⟩
      exact (update_of_ne (Ne.symm (hq rfl)) _ _).trans_ne hp
    | cancel uid' =>
      refine ⟨id, fun hp => ?_, rfl⟩
      exact (update_of_ne (Ne.symm (hq rfl)) _ _).trans hp
    | roomOf uid' =>
      unfold Cluster.apply
      dsimp only
      split
      · exact ⟨id, id, rfl⟩
      · exact ⟨id, id, rfl⟩

theorem kept_leave {uid' : Nat} {locked : Bool} (hs : k.Step w (.leave m uid' locked) k')
    (hc : ¬ k.Cleaning uid m) : Kept uid k k' := by
  simp only [Cluster.Step, Cluster.step] at hs
  split at hs
  · rename_i hin
    obtain rfl := Option.some.inj hs
    refine ⟨id, id, ?_⟩
    dsimp only
    split
    · refine update_of_ne (fun hu => hc (Or.inl ?_)) _ _
      rw [hu]
      exact hin
    · rfl
  · cases hs

theorem presence_sound {ts : List (Turn N)}
    (h : Run (Guarded (Cluster.Step w) (Orderly w uid)) Cluster.idle ts k)
    (hn : Online uid (k.gateways n)) :
    (∀ m k', m ≠ n → (k.Step w (.redis m) k' ∨ ∃ uid' locked, k.Step w (.leave m uid' locked) k') →
      Kept uid k k') ∧
    ((∀ m, ∀ q ∈ k.channel m, q.uid ≠ uid) →
      ∃ n', k.presence uid = some n' ∧ Holds uid (k.gateways n')) := by
  have hsound : Sound uid k := run_invariant h sound_idle fun hi hs => sound_step hi hs.1 hs.2
  have hl := (hsound.shown n).listed hn
  constructor
  · intro m k' hm hs
    have hc : ¬ k.Cleaning uid m := fun hc => hsound.apart m hc n (Ne.symm hm) hl
    rcases hs with hs | ⟨uid', locked, hs⟩
    · exact kept_redis hs hc
    · exact kept_leave hs hc
  · intro hquiet
    obtain ⟨n', hl', hnamed⟩ := hsound.named n hl
    refine ⟨n', hnamed.resolve_left ?_, (hsound.held n').holds hl'⟩
    exact not_not_intro (lastWord_none (hquiet n'))

def comesOnline (n : N) (s : Nat) : List (Turn N) :=
  .gateway n (.connect s) :: (authenticates s 7).map (Turn.gateway n) ++ [.redis n]

end Presence

instance {N : Type} (k : Cluster N) (uid : Nat) (m : N) : Decidable (k.Cleaning uid m) :=
  inferInstanceAs (Decidable (_ ∨ _))

instance {N : Type} [DecidableEq N] [Fintype N] (w : World) (uid : Nat) (k : Cluster N) (t : Turn N) :
    Decidable (Orderly w uid k t) := by
  cases t <;> unfold Orderly <;> infer_instance

-- The account leaves one gateway and comes back on the other one.
def changesGateway : List (Turn Bool) :=
  comesOnline true 1 ++ [.refresh true [7], .redis true, .gateway true (.close 1), .redis true,
    .redis true, .redis true] ++ comesOnline false 1

theorem presence_sound_after_change : ∃ k : Cluster Bool,
    Run (Guarded (Cluster.Step plainWorld) (Orderly plainWorld 7)) Cluster.idle changesGateway k ∧
      ∃ n, k.presence 7 = some n ∧ Holds 7 (k.gateways n) := by
  have hrun : ((changesGateway.foldlM
      (fun k t => if Orderly plainWorld 7 k t then k.step plainWorld t else none) Cluster.idle).map
        fun k => (k.channel true ++ k.channel false, ((k.gateways false).conns 1).map fun c =>
          (c.closed, c.destroyed, c.entry.map fun e => e.account.uid))) =
      some ([], some (false, false, some 7)) := by
    decide
  obtain ⟨k, hk, hend⟩ := Option.map_eq_some_iff.mp hrun
  have hguarded := run_of_checked hk
  simp only [Prod.mk.injEq, Option.map_eq_some_iff, List.append_eq_nil_iff] at hend
  obtain ⟨⟨htrue, hfalse⟩, c, hc, hopen, hup, e, he, hu⟩ := hend
  refine ⟨k, hguarded, (presence_sound hguarded ⟨1, c, e, hc, hopen, hup, he, hu⟩).2 ?_⟩
  rintro (_ | _) q hq
  · rw [hfalse] at hq
    cases hq
  · rw [htrue] at hq
    cases hq

-- The account comes back on the other gateway before its old socket closes.
def overlaps : List (Turn Bool) :=
  comesOnline true 1 ++ comesOnline false 1 ++
    [.lobby (fun _ => true) (fun _ => some 1), .gateway true (.close 1), .redis true, .redis true,
      .redis true, .leave true 7 true]

theorem overlaps_run : ∃ k, overlaps.foldlM (Cluster.step plainWorld) Cluster.idle = some k ∧
    Online 7 (k.gateways false) ∧ k.channel true = [] ∧ k.channel false = [] ∧
      k.presence 7 = none ∧ k.queued 7 = false ∧ k.members 7 = none :=
  ⟨_, rfl, ⟨1, _, _, rfl, rfl, rfl, rfl, rfl⟩, rfl, rfl, rfl, rfl, rfl⟩

theorem presence_lost : ¬ ∀ (N : Type) (_ : DecidableEq N) (w : World) (uid : Nat) (ts : List (Turn N))
    (k : Cluster N) (n : N), Run (Cluster.Step w) Cluster.idle ts k → Online uid (k.gateways n) →
      (∀ m k', m ≠ n → (k.Step w (.redis m) k' ∨ ∃ uid' locked, k.Step w (.leave m uid' locked) k') →
        Kept uid k k') ∧
      ((∀ m, ∀ q ∈ k.channel m, q.uid ≠ uid) →
        ∃ n', k.presence uid = some n' ∧ Holds uid (k.gateways n')) := by
  intro hall
  obtain ⟨k, hrun, honline, htrue, hfalse, hpresence, -⟩ := overlaps_run
  obtain ⟨n', hn', -⟩ := (hall Bool inferInstance plainWorld 7 overlaps k false (run_of_foldlM hrun)
    honline).2 (by
      rintro (_ | _) q hq
      · rw [hfalse] at hq
        cases hq
      · rw [htrue] at hq
        cases hq)
  rw [hpresence] at hn'
  cases hn'

end Sessions
