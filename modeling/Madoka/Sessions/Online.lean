import Madoka.Sessions.Table

namespace Sessions

open Lib Function

variable {w : World} {uid s now : Nat} {st st' : State} {c : Conn} {a : Event}

def Drops (uid : Nat) (st : State) : Event → Prop
  | .close s => ∃ c ∈ st.conns s, ∃ e ∈ c.entry, e.account.uid = uid ∧
      (st.sessions uid).map Entry.socket = some s
  | _ => False

def Listed (uid : Nat) (st : State) : Prop := (st.sessions uid).isSome = true

theorem put_sessions : (st.put s c).sessions = st.sessions := rfl

theorem put_conns_self : (st.put s c).conns s = some c := update_self _ _ _

theorem put_conns_of_ne {s₁ : Nat} (h : s₁ ≠ s) : (st.put s c).conns s₁ = st.conns s₁ := update_of_ne h _ _

theorem onConn_sessions {f : Conn → Conn} : (st.onConn s f).sessions = st.sessions := by
  unfold State.onConn
  split
  · rfl
  · rfl

theorem register_sessions (st : State) (e : Entry) :
    (st.register e).sessions = update st.sessions e.account.uid (some e) := by
  obtain ⟨st₁, hsame, hreg⟩ := register_eq st e
  rw [hreg]
  dsimp only
  rw [hsame.1]

theorem listed_admits (ha : Admits w uid st a) (hs : Step w st a st') : Listed uid st' := by
  obtain ⟨c, e, -, hu, rfl⟩ := admits_step ha hs
  unfold Listed
  rw [onConn_sessions, register_sessions, hu, update_self]
  rfl

theorem listed_drops (hd : Drops uid st a) (hs : Step w st a st') : ¬ Listed uid st' := by
  cases a with
  | close s =>
    obtain ⟨c, hc, e, he, rfl, hin⟩ := hd
    simp only [Step, step] at hs
    rw [Option.mem_def.mp hc, Option.bind_some] at hs
    split at hs
    · cases hs
    · rw [Option.mem_def.mp he] at hs
      dsimp only at hs
      rw [put_sessions, if_pos hin] at hs
      obtain rfl := Option.some.inj hs
      simp [Listed]
  | _ => exact hd.elim

theorem listed_of (h : st'.sessions = st.sessions) : Listed uid st' ↔ Listed uid st := by
  unfold Listed
  rw [h]

theorem listed_touch : Listed uid (st.touch s now) ↔ Listed uid st := by
  unfold Listed State.touch
  split
  · rfl
  · dsimp only
    split
    · rename_i e he hin
      rw [onConn_sessions] at hin
      dsimp only
      rw [onConn_sessions, update_apply]
      split
      · rename_i hu
        rw [hu, hin]
        rfl
      · rfl
    · rw [onConn_sessions]

theorem listed_other (ha : ¬ Admits w uid st a) (hd : ¬ Drops uid st a) (hs : Step w st a st') :
    Listed uid st' ↔ Listed uid st := by
  cases change_of_step hs with
  | same => rfl
  | opened _ => exact listed_of put_sessions
  | put _ _ => exact listed_of put_sessions
  | touched _ _ => exact listed_touch.trans (listed_of put_sessions)
  | @admitted s now row c f account hc hawait hgate =>
    have hne : uid ≠ account.uid := fun hu =>
      ha ⟨c, hc, account, by rw [hawait]; rfl, hu.symm, hgate⟩
    unfold Listed
    rw [onConn_sessions, register_sessions, update_of_ne hne]
  | @closed s c _ hc hopen hs =>
    simp only [step, hc, Option.bind_some, hopen] at hs
    rw [if_neg Bool.false_ne_true] at hs
    split at hs
    · rename_i e he
      rw [put_sessions] at hs
      split at hs
      · rename_i hin
        obtain rfl := Option.some.inj hs
        have hne : uid ≠ e.account.uid := fun hu => hd ⟨c, hc, e, he, hu.symm, hu ▸ hin⟩
        unfold Listed
        dsimp only
        rw [update_of_ne hne]
      · obtain rfl := Option.some.inj hs
        rfl
    · obtain rfl := Option.some.inj hs
      rfl

def Online (uid : Nat) (st : State) : Prop :=
  ∃ s c e, st.conns s = some c ∧ c.closed = false ∧ c.destroyed = false ∧ c.entry = some e ∧
    e.account.uid = uid

def Holds (uid : Nat) (st : State) : Prop :=
  ∃ e c, st.sessions uid = some e ∧ st.conns e.socket = some c ∧ c.closed = false ∧ c.entry = some e ∧
    e.account.uid = uid

theorem Held.holds (h : Held uid st) (hl : Listed uid st) : Holds uid st := by
  obtain ⟨e, he⟩ := Option.isSome_iff_exists.mp hl
  obtain ⟨c, hc, hopen, hentry⟩ := h.live e he
  exact ⟨e, c, he, hc, hopen, hentry, h.keyed e he⟩

def Shown (uid : Nat) (st : State) : Prop :=
  ∀ s c e, st.conns s = some c → c.closed = false → c.destroyed = false → c.entry = some e →
    e.account.uid = uid → st.sessions uid = some e

theorem Shown.listed (h : Shown uid st) (ho : Online uid st) : Listed uid st := by
  obtain ⟨s, c, e, hc, hopen, hup, hentry, hu⟩ := ho
  exact Option.isSome_iff_exists.mpr ⟨e, h s c e hc hopen hup hentry hu⟩

theorem shown_start : Shown uid start := by
  intro s c e hc
  cases hc

theorem shown_put {c' : Conn} (h : Shown uid st)
    (hc' : ∀ e, c'.closed = false → c'.destroyed = false → c'.entry = some e → e.account.uid = uid →
      st.sessions uid = some e) : Shown uid (st.put s c') := by
  intro s₁ c₁ e hc₁ hopen hup hentry hu
  unfold State.put at hc₁
  dsimp only at hc₁
  rw [update_apply] at hc₁
  split at hc₁
  · obtain rfl := Option.some.inj hc₁
    exact hc' e hopen hup hentry hu
  · exact h s₁ c₁ e hc₁ hopen hup hentry hu

theorem shown_onward {c' : Conn} (h : Shown uid st) (hc : st.conns s = some c) (hon : c.Onward c') :
    Shown uid (st.put s c') := by
  refine shown_put h fun e hopen hup hentry hu => ?_
  refine h s c e hc (hon.closed ▸ hopen) ?_ (hon.entry ▸ hentry) hu
  cases hd : c.destroyed with
  | false => rfl
  | true => exact (hon.destroyed hd).symm.trans hup

theorem shown_touch (h : Shown uid st) (hheld : Held uid st) : Shown uid (st.touch s now) := by
  unfold State.touch
  cases hc : st.conns s with
  | none => exact h
  | some c =>
    cases he : c.entry with
    | none => simpa [he] using h
    | some e =>
      simp only [Option.bind_some, he, State.onConn, hc, put_sessions]
      have hother : ∀ s₁ c₁ e₁, st.conns s₁ = some c₁ → c₁.closed = false → c₁.destroyed = false →
          c₁.entry = some e₁ → e₁.account.uid = uid → s₁ ≠ s → st.sessions uid ≠ some e := by
        intro s₁ c₁ e₁ hc₁ hopen hup hentry hu hs hin
        have hmine := h s₁ c₁ e₁ hc₁ hopen hup hentry hu
        obtain rfl := Option.some.inj (hin.symm.trans hmine)
        exact hs ((hheld.own s₁ c₁ _ hc₁ hentry).symm.trans (hheld.own s c _ hc he))
      intro s₁ c₁ e₁ hc₁ hopen hup hentry hu
      by_cases hs : s₁ = s
      · subst hs
        have hput : c₁ = { c with entry := some { e with lastSeen := now } } := by
          split at hc₁
          · exact (Option.some.inj (put_conns_self.symm.trans hc₁)).symm
          · exact (Option.some.inj (put_conns_self.symm.trans hc₁)).symm
        subst hput
        obtain rfl := Option.some.inj hentry
        have hin := h s₁ c e hc hopen hup he hu
        dsimp only at hu
        rw [hu, if_pos hin]
        exact update_self _ _ _
      · have hold : st.conns s₁ = some c₁ := by
          split at hc₁
          · exact (put_conns_of_ne hs).symm.trans hc₁
          · exact (put_conns_of_ne hs).symm.trans hc₁
        have hmine := h s₁ c₁ e₁ hold hopen hup hentry hu
        split
        · rename_i hin
          have hne : uid ≠ e.account.uid := fun heq =>
            hother s₁ c₁ e₁ hold hopen hup hentry hu hs (heq ▸ hin)
          exact (update_of_ne hne _ _).trans hmine
        · exact hmine

theorem register_conns {e : Entry} {s₁ : Nat} {c₁ : Conn} (hc : (st.register e).conns s₁ = some c₁) :
    ∃ c, st.conns s₁ = some c ∧ c.Onward c₁ ∧
      ∀ e₁, st.sessions e.account.uid = some e₁ → e₁.socket = s₁ → s₁ ≠ e.socket → c₁.destroyed = true := by
  have hsame : ∀ c : Conn, c.Onward c := fun c => ⟨rfl, rfl, id, id⟩
  unfold State.register at hc
  cases hprev : st.sessions e.account.uid with
  | none =>
    rw [hprev] at hc
    exact ⟨c₁, hc, hsame c₁, nofun⟩
  | some prev =>
    rw [hprev] at hc
    dsimp only at hc
    split at hc
    · unfold State.destroy State.onConn at hc
      cases hc₀ : st.conns prev.socket with
      | none =>
        rw [hc₀] at hc
        refine ⟨c₁, hc, hsame c₁, fun e₁ he₁ hs => ?_⟩
        obtain rfl := Option.some.inj he₁
        rw [hs] at hc₀
        cases hc₀.symm.trans hc
      | some c₀ =>
        rw [hc₀] at hc
        unfold State.put at hc
        dsimp only at hc
        rw [update_apply] at hc
        split at hc
        · rename_i hs
          obtain rfl := Option.some.inj hc
          exact ⟨c₀, hs ▸ hc₀, ⟨rfl, rfl, id, fun _ => rfl⟩, fun _ _ _ _ => rfl⟩
        · rename_i hs
          refine ⟨c₁, hc, hsame c₁, fun e₁ he₁ hs₁ => ?_⟩
          obtain rfl := Option.some.inj he₁
          exact absurd hs₁.symm hs
    · rename_i hs
      refine ⟨c₁, hc, hsame c₁, fun e₁ he₁ hs₁ hne => ?_⟩
      obtain rfl := Option.some.inj he₁
      exact absurd (hs₁ ▸ hne) hs

theorem shown_admitted {account : Account} {region : Nat} (h : Shown uid st) (hheld : Held uid st) :
    Shown uid ((st.register ⟨s, account, region, now⟩).onConn s fun c =>
      { c with await := .idle, entry := some ⟨s, account, region, now⟩ }) := by
  obtain ⟨e, he⟩ : ∃ e : Entry, e = ⟨s, account, region, now⟩ := ⟨_, rfl⟩
  rw [← he]
  intro s₁ c₁ e₁ hc₁ hopen hup hentry hu
  rw [onConn_sessions, register_sessions]
  by_cases hs : s₁ = s
  · subst hs
    have hin : e₁ = e := by
      unfold State.onConn at hc₁
      split at hc₁
      · obtain rfl := Option.some.inj (put_conns_self.symm.trans hc₁)
        exact (Option.some.inj hentry).symm
      · rename_i hnone
        cases hnone.symm.trans hc₁
    rw [hin] at hu
    rw [hu, update_self, hin]
  · have hold : (st.register e).conns s₁ = some c₁ := by
      unfold State.onConn at hc₁
      split at hc₁
      · exact (put_conns_of_ne hs).symm.trans hc₁
      · exact hc₁
    obtain ⟨c, hc, hon, hdown⟩ := register_conns hold
    have hup' : c.destroyed = false := by
      cases hd : c.destroyed with
      | false => rfl
      | true => exact (hon.destroyed hd).symm.trans hup
    have hentry' : c.entry = some e₁ := hon.entry.symm.trans hentry
    have hmine := h s₁ c e₁ hc (hon.closed.symm.trans hopen) hup' hentry' hu
    have hne : uid ≠ e.account.uid := by
      intro heq
      have hd := hdown e₁ (heq ▸ hmine) (hheld.own s₁ c e₁ hc hentry') (he ▸ hs)
      exact Bool.false_ne_true (hup.symm.trans hd)
    rw [update_of_ne hne]
    exact hmine

theorem shown_step (h : Shown uid st) (hheld : Held uid st) (hs : Step w st a st') : Shown uid st' := by
  cases change_of_step hs with
  | same => exact h
  | opened _ =>
    refine shown_put h fun e _ _ hentry _ => ?_
    cases hentry
  | put hc hon => exact shown_onward h hc hon
  | touched hc hon =>
    exact shown_touch (shown_onward h hc hon) (hheld.same (same_put hc hon.entry hon.closed))
  | admitted _ _ _ => exact shown_admitted h hheld
  | @closed s c _ hc hopen hs =>
    simp only [step, hc, Option.bind_some, hopen] at hs
    rw [if_neg Bool.false_ne_true] at hs
    have hshown : Shown uid (st.put s { c with closed := true, destroyed := true }) :=
      shown_put h fun e hclosed _ _ _ => by cases hclosed
    split at hs
    · rename_i e he
      rw [put_sessions] at hs
      split at hs
      · rename_i hin
        obtain rfl := Option.some.inj hs
        intro s₁ c₁ e₁ hc₁ hopen₁ hup hentry hu
        have hmine : st.sessions uid = some e₁ := hshown s₁ c₁ e₁ hc₁ hopen₁ hup hentry hu
        have hs₁ : s₁ ≠ s := by
          rintro rfl
          obtain rfl := Option.some.inj (put_conns_self.symm.trans hc₁)
          cases hopen₁
        have hsocket := hheld.own s₁ c₁ e₁ ((put_conns_of_ne hs₁).symm.trans hc₁) hentry
        have hne : uid ≠ e.account.uid := by
          intro heq
          rw [← heq, hmine, Option.map_some, hsocket] at hin
          exact hs₁ (Option.some.inj hin)
        exact (update_of_ne hne _ _).trans hmine
      · obtain rfl := Option.some.inj hs
        exact hshown
    · obtain rfl := Option.some.inj hs
      exact hshown

instance (w : World) (uid : Nat) (st : State) (a : Event) : Decidable (Admits w uid st a) :=
  match a with
  | .gate .. => by
    unfold Admits
    infer_instance
  | .connect _ | .data .. | .next .. | .token .. | .reject _ | .kick _ | .timer _ | .close _ =>
    isFalse id

instance (uid : Nat) (st : State) (a : Event) : Decidable (Drops uid st a) :=
  match a with
  | .close _ => by
    unfold Drops
    infer_instance
  | .connect _ | .data .. | .next .. | .token .. | .gate .. | .reject _ | .kick _ | .timer _ =>
    isFalse id

instance (uid : Nat) (st : State) : Decidable (Listed uid st) :=
  inferInstanceAs (Decidable (_ = true))

end Sessions
