import Mathlib.Data.List.Nodup
import Madoka.Account.Serial
import Madoka.Account.Wardrobe

namespace Account

open Lib

-- What others see of a player.
def Profile.look (p : Profile) : Nat × Nat × List Nat := (p.avatarId, p.skinColor, p.clothes)

def SelectedItems.look (s : SelectedItems) : Nat × Nat × List Nat := (s.avatarId, s.skinColor, s.clothes)

namespace Wardrobe

variable {w w' : Wardrobe} {roster : List Nat} {l : List Profile} {p q : Profile} {a : Nat}
  {f : Profile → Profile}

-- The avatars are those of the roster, and what the player wears is the look of a selected one.
structure Dressed (roster : List Nat) (w : Wardrobe) : Prop where
  roster : w.profiles.map Profile.avatarId = roster
  worn : ∃ p ∈ w.profiles, p.isSelected = true ∧ w.selectedItems.look = p.look

theorem replaceF_eq_map (h : (l.map Profile.avatarId).Nodup) :
    (l.replaceF fun p => if p.avatarId = a then some (f p) else none) =
      l.map fun p => if p.avatarId = a then f p else p := by
  induction l with
  | nil => rfl
  | cons p l ih =>
    obtain ⟨hp, hl⟩ := List.nodup_cons.mp h
    rw [List.replaceF_cons, List.map_cons]
    by_cases ha : p.avatarId = a
    · have hrest : (l.map fun q => if q.avatarId = a then f q else q) = l.map id := by
        apply List.map_congr_left
        intro q hq
        refine if_neg fun heq => hp (List.mem_map.mpr ⟨q, hq, ?_⟩)
        rw [heq, ha]
      rw [if_pos ha, if_pos ha, hrest, List.map_id]
    · rw [if_neg ha, if_neg ha, ih hl]

theorem profiles_change (h : (w.profiles.map Profile.avatarId).Nodup) :
    (w.change a f).profiles = w.profiles.map fun p => if p.avatarId = a then f p else p :=
  replaceF_eq_map h

theorem roster_map {g : Profile → Profile} (hg : ∀ p, (g p).avatarId = p.avatarId) :
    (l.map g).map Profile.avatarId = l.map Profile.avatarId := by
  rw [List.map_map]
  apply List.map_congr_left
  intro p _
  exact hg p

theorem flagged (hl : p ∈ l) : ∃ q ∈ l.replaceF fun p =>
    if p.listed then some p.flag else none,
      q.look = p.look ∧ (p.isSelected = true → q.isSelected = true) := by
  induction l with
  | nil => cases hl
  | cons x l ih =>
    rw [List.replaceF_cons]
    by_cases hx : x.listed = true
    · rw [if_pos hx]
      rcases List.mem_cons.mp hl with rfl | hl
      · exact ⟨_, List.mem_cons_self, rfl, fun _ => rfl⟩
      · exact ⟨p, List.mem_cons_of_mem _ hl, rfl, id⟩
    · rw [if_neg hx]
      rcases List.mem_cons.mp hl with rfl | hl
      · exact ⟨p, List.mem_cons_self, rfl, id⟩
      · obtain ⟨q, hq, hlook⟩ := ih hl
        exact ⟨q, List.mem_cons_of_mem _ hq, hlook⟩

theorem roster_flagged : (l.replaceF fun p => if p.listed then some p.flag else none).map Profile.avatarId =
    l.map Profile.avatarId := by
  induction l with
  | nil => rfl
  | cons x l ih =>
    rw [List.replaceF_cons]
    by_cases hx : x.listed = true
    · rw [if_pos hx]
      rfl
    · rw [if_neg hx]
      exact congrArg (x.avatarId :: ·) ih

theorem mem_selectedProfile (h : ∃ q ∈ w.profiles, q.isSelected = true) (hp : w.selectedProfile = some p) :
    p ∈ w.profiles ∧ p.isSelected = true := by
  unfold selectedProfile at hp
  cases hfind : w.profiles.find? Profile.isSelected with
  | none =>
    obtain ⟨q, hq, hsel⟩ := h
    exact absurd hsel (List.find?_eq_none.mp hfind q hq)
  | some x =>
    rw [hfind, Option.some_or] at hp
    obtain rfl := Option.some.inj hp
    exact ⟨List.mem_of_find?_eq_some hfind, List.find?_some hfind⟩

theorem unlockProfile_reads : w.handleUnlockProfile.2 = none := by
  unfold handleUnlockProfile
  split
  · rfl
  · rfl

namespace Dressed

variable (hroster : roster.Nodup) (h : Dressed roster w)

include h

theorem onItems {g : SelectedItems → SelectedItems} (hg : (g w.selectedItems).look = w.selectedItems.look) :
    Dressed roster (w.onItems g) := by
  obtain ⟨p, hp, hsel, hlook⟩ := h.worn
  exact ⟨h.roster, p, hp, hsel, hg.trans hlook⟩

theorem selectProfile {avatarId : Option Nat} (hw : (w.handleSelectProfile avatarId).2 = some w') :
    Dressed roster w' := by
  unfold handleSelectProfile at hw
  dsimp only at hw
  split at hw
  · cases hw
  · rename_i p hp
    cases hw
    refine ⟨(roster_map (g := Profile.select avatarId) fun _ => rfl).trans h.roster, p, ?_, ?_, rfl⟩
    · exact List.mem_reverse.mp (List.mem_of_find?_eq_some hp)
    · exact List.find?_some hp

theorem getBackpack (hw : w.handleGetBackpack.2 = some w') : Dressed roster w' := by
  obtain ⟨q, hq, hsel, -⟩ := h.worn
  unfold handleGetBackpack at hw
  split at hw
  · cases hw
  · rename_i p hp
    cases hw
    obtain ⟨hmem, hpsel⟩ := mem_selectedProfile ⟨q, hq, hsel⟩ hp
    exact ⟨h.roster, p, hmem, hpsel, rfl⟩

theorem getProfiles (hw : w.handleGetProfiles.2 = some w') : Dressed roster w' := by
  obtain ⟨p, hp, hsel, hlook⟩ := h.worn
  unfold handleGetProfiles at hw
  dsimp only at hw
  split at hw
  · cases hw
    obtain ⟨q, hq, hqlook, hqsel⟩ := flagged hp
    exact ⟨roster_flagged.trans h.roster, q, hq, hqsel hsel, hlook.trans hqlook.symm⟩
  · cases hw

theorem chooseIf {α : Type} {x : Option α} {g : α → SelectedItems → SelectedItems}
    (hg : ∀ a s, (g a s).look = s.look) (hw : (w.chooseIf x g).2 = some w') : Dressed roster w' := by
  cases x with
  | none => cases hw
  | some a =>
    cases hw
    exact h.onItems (hg a _)

include hroster

theorem equipSkill {avatarId skillId slotId : Option Nat}
    (hw : (w.handleEquipSkill avatarId skillId slotId).2 = some w') : Dressed roster w' := by
  have hnodup : (w.profiles.map Profile.avatarId).Nodup := h.roster ▸ hroster
  obtain ⟨p, hp, hsel, hlook⟩ := h.worn
  unfold handleEquipSkill at hw
  split at hw
  · rename_i a skill
    split at hw
    · cases hw
      have hkeep : ∀ q : Profile, (if q.avatarId = a then q.equip skill (slotId.getD 0) else q).look = q.look ∧
          (if q.avatarId = a then q.equip skill (slotId.getD 0) else q).isSelected = q.isSelected := by
        intro q
        split
        · exact ⟨rfl, rfl⟩
        · exact ⟨rfl, rfl⟩
      refine ⟨?_, ?_⟩
      · rw [profiles_change hnodup]
        exact (roster_map fun q => congrArg Prod.fst (hkeep q).1).trans h.roster
      · rw [profiles_change hnodup]
        exact ⟨_, List.mem_map_of_mem hp, (hkeep p).2.trans hsel, hlook.trans (hkeep p).1.symm⟩
    · cases hw
  · cases hw

theorem changeClothes {avatarId skinColor : Option Nat} {clothes : List Nat}
    (hw : (w.handleChangeClothes avatarId clothes skinColor).2 = some w') : Dressed roster w' := by
  have hnodup : (w.profiles.map Profile.avatarId).Nodup := h.roster ▸ hroster
  obtain ⟨q, hq, hsel, hlook⟩ := h.worn
  unfold handleChangeClothes at hw
  dsimp only at hw
  split at hw
  · cases hw
  · rename_i p hfind
    cases hw
    have hp := List.mem_of_find?_eq_some hfind
    have hids : ∀ x : Profile, (if x.avatarId = p.avatarId then p.dress clothes skinColor else x).avatarId =
        x.avatarId := by
      intro x
      split
      · exact Eq.symm ‹_›
      · rfl
    refine ⟨?_, ?_⟩
    · rw [profiles_change hnodup]
      exact (roster_map hids).trans h.roster
    · rw [profiles_change hnodup]
      by_cases hpsel : p.isSelected = true
      · refine ⟨p.dress clothes skinColor, List.mem_map.mpr ⟨p, hp, if_pos rfl⟩, hpsel, ?_⟩
        change (if p.isSelected = true then w.selectedItems.wear _ else w.selectedItems).look = _
        rw [if_pos hpsel]
        rfl
      · have hne : q.avatarId ≠ p.avatarId := by
          intro heq
          rw [List.inj_on_of_nodup_map hnodup hq hp heq] at hsel
          exact hpsel hsel
        refine ⟨q, List.mem_map.mpr ⟨q, hq, if_neg hne⟩, hsel, ?_⟩
        change (if p.isSelected = true then w.selectedItems.wear _ else w.selectedItems).look = _
        rw [if_neg hpsel]
        exact hlook

theorem handle {req : Request} (hw : (w.handle req).2 = some w') : Dressed roster w' := by
  cases req with
  | selectProfile avatarId => exact h.selectProfile hw
  | changeClothes avatarId clothes skinColor => exact h.changeClothes hroster hw
  | equipSkill avatarId skillId slotId => exact h.equipSkill hroster hw
  | chooseSlots slots =>
    cases hw
    exact h.onItems rfl
  | chooseShow shows =>
    cases hw
    exact h.onItems rfl
  | chooseEmote slotId emoteId =>
    cases hw
    exact h.onItems rfl
  | chooseBanner bannerId => exact h.chooseIf (g := fun b s => { s with bannerId := b }) (fun _ _ => rfl) hw
  | chooseHeadPic headPic => exact h.chooseIf (g := fun b s => { s with headPic := b }) (fun _ _ => rfl) hw
  | chooseLoadout loadouts => exact h.chooseIf (g := fun l s => { s with loadouts := l }) (fun _ _ => rfl) hw
  | getBackpack => exact h.getBackpack hw
  | getProfiles => exact h.getProfiles hw
  | unlockProfile =>
    rw [Wardrobe.handle, unlockProfile_reads] at hw
    cases hw

end Dressed

-- The request names no avatar and no skill that GetProfiles hides.
def Unblocked : Request → Prop
  | .selectProfile (some a) => a ∉ BLOCKED_AVATARS
  | .equipSkill _ (some skillId) _ => skillId ∉ BLOCKED_AVATARS
  | _ => True

-- One profile is selected, and no skill hides it.
structure Single (w : Wardrobe) : Prop where
  skills : ∀ p ∈ w.profiles, p.firstSkill ∉ BLOCKED_AVATARS
  one : ∃ p, w.profiles.filter Profile.isSelected = [p] ∧ p.avatarId ∉ BLOCKED_AVATARS

theorem firstSkill_equip (skillId slotId : Nat) (p : Profile) :
    (p.equip skillId slotId).firstSkill = skillId ∨ (p.equip skillId slotId).firstSkill = p.firstSkill := by
  unfold Profile.equip Profile.firstSkill
  cases p.equipedSkills with
  | nil => exact Or.inl rfl
  | cons s l =>
    by_cases hs : s.slotId = slotId
    · left
      simp [hs]
    · right
      dsimp only
      split
      · simp [hs]
      · rfl

theorem filter_eq_singleton (hnodup : (l.map Profile.avatarId).Nodup) (hp : p ∈ l) (hsel : p.isSelected = true)
    (hall : ∀ q ∈ l, q.isSelected = true → q.avatarId = p.avatarId) : l.filter Profile.isSelected = [p] := by
  have hone : ∀ q ∈ l.filter Profile.isSelected, q = p := by
    intro q hq
    obtain ⟨hq, hqsel⟩ := List.mem_filter.mp hq
    exact List.inj_on_of_nodup_map hnodup hq hp (hall q hq hqsel)
  have hmem : p ∈ l.filter Profile.isSelected := List.mem_filter.mpr ⟨hp, hsel⟩
  have hnd : (l.filter Profile.isSelected).Nodup := (List.Nodup.of_map _ hnodup).filter _
  cases hl : l.filter Profile.isSelected with
  | nil =>
    rw [hl] at hmem
    cases hmem
  | cons x xs =>
    rw [hl] at hnd hone
    have hx := hone x List.mem_cons_self
    have hxs : xs = [] := by
      apply List.eq_nil_iff_forall_not_mem.mpr
      intro y hy
      have hxy : x = y := hx.trans (hone y (List.mem_cons_of_mem x hy)).symm
      exact (List.nodup_cons.mp hnd).1 (hxy ▸ hy)
    rw [hx, hxs]

namespace Single

variable (h : Single w)

include h

theorem map {g : Profile → Profile} (hw : w'.profiles = w.profiles.map g)
    (hsel : ∀ p ∈ w.profiles, (g p).isSelected = p.isSelected)
    (hid : ∀ p ∈ w.profiles, (g p).avatarId = p.avatarId)
    (hskill : ∀ p ∈ w.profiles, (g p).firstSkill ∉ BLOCKED_AVATARS) : Single w' where
  skills := fun q hq => by
    rw [hw] at hq
    obtain ⟨p, hp, rfl⟩ := List.mem_map.mp hq
    exact hskill p hp
  one := by
    obtain ⟨p, hp, ha⟩ := h.one
    have hmem := (List.mem_filter.mp (hp.symm ▸ List.mem_singleton_self p)).1
    refine ⟨g p, ?_, (hid p hmem).symm ▸ ha⟩
    have hcongr : w.profiles.filter (Profile.isSelected ∘ g) = w.profiles.filter Profile.isSelected := by
      apply List.filter_congr
      intro q hq
      exact hsel q hq
    rw [hw, List.filter_map, hcongr, hp, List.map_singleton]

theorem same (hw : w'.profiles = w.profiles) : Single w' :=
  ⟨hw ▸ h.skills, hw ▸ h.one⟩

theorem selectProfile (hnodup : (w.profiles.map Profile.avatarId).Nodup) (ha : a ∉ BLOCKED_AVATARS)
    (hw : (w.handleSelectProfile (some a)).2 = some w') : Single w' := by
  unfold handleSelectProfile at hw
  dsimp only at hw
  split at hw
  · cases hw
  · rename_i p hp
    cases hw
    have hid : ∀ q ∈ w.profiles.map (Profile.select (some a)), q.isSelected = true → q.avatarId = a := by
      intro q hq hsel
      obtain ⟨x, -, rfl⟩ := List.mem_map.mp hq
      exact Option.some.inj (of_decide_eq_true hsel)
    have hmem := List.mem_reverse.mp (List.mem_of_find?_eq_some hp)
    have hsel := List.find?_some hp
    have hpa := hid p hmem hsel
    refine ⟨fun q hq => ?_, p, ?_, hpa.symm ▸ ha⟩
    · obtain ⟨x, hx, rfl⟩ := List.mem_map.mp hq
      exact h.skills x hx
    · refine filter_eq_singleton ?_ hmem hsel fun q hq hqsel => (hid q hq hqsel).trans hpa.symm
      change ((w.profiles.map (Profile.select (some a))).map Profile.avatarId).Nodup
      rw [roster_map (g := Profile.select (some a)) fun _ => rfl]
      exact hnodup

theorem getProfiles : ∃ p, w.profiles.filter Profile.isSelected = [p] ∧
    (w.profiles.filter Profile.listed).filter Profile.isSelected = [p] ∧
      w.handleGetProfiles = (.profiles (w.profiles.filter Profile.listed), none) := by
  obtain ⟨p, hp, ha⟩ := h.one
  obtain ⟨hmem, hsel⟩ := List.mem_filter.mp (hp.symm ▸ List.mem_singleton_self p)
  have hlisted : p.listed = true := by
    have hskill := h.skills p hmem
    simp [Profile.listed, ha, hskill]
  refine ⟨p, hp, ?_, ?_⟩
  · rw [List.filter_comm, hp, List.filter_singleton, hlisted]
    rfl
  · unfold handleGetProfiles
    dsimp only
    rw [if_neg]
    rintro ⟨-, hall⟩
    have hnot := List.all_eq_true.mp hall p (List.mem_filter.mpr ⟨hmem, hlisted⟩)
    simp [hsel] at hnot

theorem equipSkill (hnodup : (w.profiles.map Profile.avatarId).Nodup) {avatarId skillId slotId : Option Nat}
    (hu : Unblocked (.equipSkill avatarId skillId slotId))
    (hw : (w.handleEquipSkill avatarId skillId slotId).2 = some w') : Single w' := by
  unfold handleEquipSkill at hw
  split at hw
  · rename_i a skill
    split at hw
    · cases hw
      refine h.map (profiles_change hnodup) (fun q _ => ?_) (fun q _ => ?_) fun q hq => ?_
      · split
        · rfl
        · rfl
      · split
        · rfl
        · rfl
      · split
        · rcases firstSkill_equip skill (slotId.getD 0) q with heq | heq
          · exact heq.symm ▸ hu
          · exact heq.symm ▸ h.skills q hq
        · exact h.skills q hq
    · cases hw
  · cases hw

theorem changeClothes (hnodup : (w.profiles.map Profile.avatarId).Nodup) {avatarId skinColor : Option Nat}
    {clothes : List Nat} (hw : (w.handleChangeClothes avatarId clothes skinColor).2 = some w') : Single w' := by
  unfold handleChangeClothes at hw
  dsimp only at hw
  split at hw
  · cases hw
  · rename_i p hfind
    cases hw
    have hp := List.mem_of_find?_eq_some hfind
    have hchange : ∀ q ∈ w.profiles, ∀ r, (if q.avatarId = p.avatarId then p.dress clothes skinColor else q) = r →
        r.isSelected = q.isSelected ∧ r.avatarId = q.avatarId ∧ r.firstSkill = q.firstSkill := by
      rintro q hq r rfl
      split
      · rw [List.inj_on_of_nodup_map hnodup hq hp ‹_›]
        exact ⟨rfl, rfl, rfl⟩
      · exact ⟨rfl, rfl, rfl⟩
    refine h.map (profiles_change hnodup) (fun q hq => (hchange q hq _ rfl).1)
      (fun q hq => (hchange q hq _ rfl).2.1) fun q hq => ?_
    rw [(hchange q hq _ rfl).2.2]
    exact h.skills q hq

theorem getBackpack (hw : w.handleGetBackpack.2 = some w') : Single w' := by
  unfold handleGetBackpack at hw
  split at hw
  · cases hw
  · cases hw
    exact h.same rfl

theorem chooseIf {α : Type} {x : Option α} {g : α → SelectedItems → SelectedItems}
    (hw : (w.chooseIf x g).2 = some w') : Single w' := by
  cases x with
  | none => cases hw
  | some a =>
    cases hw
    exact h.same rfl

theorem handle (hnodup : (w.profiles.map Profile.avatarId).Nodup) {req : Request} (hu : Unblocked req)
    (hw : (w.handle req).2 = some w') : Single w' := by
  cases req with
  | selectProfile avatarId =>
    cases avatarId with
    | none =>
      rw [Wardrobe.handle, handleSelectProfile] at hw
      split at hw
      · cases hw
      · rename_i p hp
        obtain ⟨x, -, rfl⟩ := List.mem_map.mp (List.mem_reverse.mp (List.mem_of_find?_eq_some hp))
        have hsel : some x.avatarId = none := of_decide_eq_true (List.find?_some (p := Profile.isSelected) hp)
        cases hsel
    | some a => exact h.selectProfile hnodup hu hw
  | changeClothes avatarId clothes skinColor => exact h.changeClothes hnodup hw
  | equipSkill avatarId skillId slotId => exact h.equipSkill hnodup hu hw
  | chooseSlots slots =>
    cases hw
    exact h.same rfl
  | chooseShow shows =>
    cases hw
    exact h.same rfl
  | chooseEmote slotId emoteId =>
    cases hw
    exact h.same rfl
  | chooseBanner bannerId => exact h.chooseIf (g := fun b s => { s with bannerId := b }) hw
  | chooseHeadPic headPic => exact h.chooseIf (g := fun b s => { s with headPic := b }) hw
  | chooseLoadout loadouts => exact h.chooseIf (g := fun l s => { s with loadouts := l }) hw
  | getBackpack => exact h.getBackpack hw
  | getProfiles =>
    obtain ⟨p, -, -, hsame⟩ := h.getProfiles
    rw [Wardrobe.handle, hsame] at hw
    cases hw
  | unlockProfile =>
    rw [Wardrobe.handle, unlockProfile_reads] at hw
    cases hw

end Single

def Holds (P : Wardrobe → Prop) (d : Doc Wardrobe) : Prop := ∃ w, d.rest = some w ∧ P w

theorem rest_rowToAccount {row : Row Wardrobe} {u : Nat} (h : row.state.rest = some w) :
    (rowToAccount initial u row).rest = some w := by
  have hne : row.state ≠ Doc.empty := by
    intro heq
    rw [heq] at h
    cases h
  rw [rowToAccount, if_neg hne]
  exact h

theorem holds_rowToAccount {P : Wardrobe → Prop} {row : Row Wardrobe} {u : Nat} (h : Holds P row.state) :
    Holds P (rowToAccount initial u row) := by
  obtain ⟨w, hrest, hw⟩ := h
  exact ⟨w, rest_rowToAccount hrest, hw⟩

theorem holds_of_rest {P : Wardrobe → Prop} {d d' : Doc Wardrobe} (hrest : d'.rest = d.rest) (h : Holds P d) :
    Holds P d' := by
  obtain ⟨w, hd, hw⟩ := h
  exact ⟨w, hrest.trans hd, hw⟩

section Runs

variable {ι : Type} [DecidableEq ι] {s₀ s t : Accounts Wardrobe ι} {e : Event Wardrobe ι} {es : List (Event Wardrobe ι)}
  {P : Nat → Wardrobe → Prop} {roster : Nat → List Nat}

-- An endpoint that is asked for is one of the avatar endpoints, with a request that is permitted,
-- or one that leaves this part of the document alone.
def Asks (permitted : Request → Prop) (_s : Accounts Wardrobe ι) (e : Event Wardrobe ι) : Prop :=
  ∀ i u token h k, e = .read i (u, .http token h) k →
    (∃ req, permitted req ∧ h = endpoint req) ∨ ∀ d d', h.run d = some d' → d'.rest = d.rest

theorem holds_change {Q : Wardrobe → Prop} {op : Op Wardrobe} {d d' : Doc Wardrobe} (h : Holds Q d)
    (hd : op.change d = some d') (hhttp : ∀ token g, op = .http token g → g.run d = some d' → Holds Q d') :
    Holds Q d' := by
  cases op with
  | http token g => exact hhttp token g rfl hd
  | majorLogin req newToken nowSecs enforceBans authBanned =>
    simp only [Op.change] at hd
    split at hd
    · cases hd
    · cases hd
      exact holds_of_rest rfl h
  | unban uid =>
    simp only [Op.change] at hd
    split at hd
    · cases hd
      exact holds_of_rest rfl h
    · cases hd
  | _ =>
    cases hd
    exact holds_of_rest rfl h

-- What every permitted request keeps holds of every account in every run, stale saves or not.
theorem holds_run {permitted : Request → Prop}
    (hkeep : ∀ k w req w', permitted req → P k w → (w.handle req).2 = some w' → P k w')
    (hidle : ∀ i, s₀.clients i = .idle) (h0 : ∀ k row, s₀.rows k = some row → Holds (P k) row.state)
    (hr : Run (Guarded (Store.Step (access initial)) (Asks permitted)) s₀ es s) :
    ∀ k row, s.rows k = some row → Holds (P k) row.state := by
  have hkept : Kept (fun k (row : Row Wardrobe) => Holds (P k) row.state) (fun k => Holds (P k)) s := by
    refine run_invariant hr (kept_idle hidle h0) fun {a e b} ha hs => ?_
    refine kept_step ha hs.1 ?_ ?_ ?_
    · rintro i ⟨u, op⟩ k row d rfl hrow hd
      refine holds_change (holds_rowToAccount hrow) hd fun token g hop hg => ?_
      subst hop
      rcases hs.2 i u token g k rfl with ⟨req, hreq, rfl⟩ | hrest
      · obtain ⟨w, hw, hP⟩ := holds_rowToAccount (u := u) hrow
        simp only [endpoint, Option.map_eq_some_iff] at hg
        obtain ⟨w', hw', rfl⟩ := hg
        rw [hw, Option.getD_some] at hw'
        exact ⟨w', rfl, hkeep k w req w' hreq hP hw'⟩
      · exact holds_of_rest (hrest _ _ hg) (holds_rowToAccount hrow)
    · intro k now d row hd _
      exact holds_of_rest rfl hd
    · intro k u row row' hrow hu
      simp only [access, Option.map_eq_some_iff] at hu
      obtain ⟨state, hstate, rfl⟩ := hu
      rw [creditCoins_some hstate]
      exact holds_of_rest rfl hrow
  exact hkept.rows

-- In every run over accounts that begin so, each with a roster of its own, the avatars of an account never
-- change, and what it wears is the look of a selected profile: in the lobby, in a room and in a match's token.
theorem looks_kept (hroster : ∀ k, (roster k).Nodup) (hidle : ∀ i, s₀.clients i = .idle)
    (h0 : ∀ k row, s₀.rows k = some row → Holds (Dressed (roster k)) row.state)
    (hr : Run (Guarded (Store.Step (access initial)) (Asks fun _ => True)) s₀ es s) :
    ∀ k row, s.rows k = some row → Holds (Dressed (roster k)) row.state :=
  holds_run (P := fun k => Dressed (roster k)) (fun k _ _ _ _ hw hs => hw.handle (hroster k) hs) hidle h0 hr

-- When no request names what GetProfiles hides, one profile of an account is selected, the client is
-- shown it, and it is what the account wears.
theorem single_selected (hroster : ∀ k, (roster k).Nodup) (hidle : ∀ i, s₀.clients i = .idle)
    (h0 : ∀ k row, s₀.rows k = some row → Holds (fun w => Dressed (roster k) w ∧ Single w) row.state)
    (hr : Run (Guarded (Store.Step (access initial)) (Asks Unblocked)) s₀ es s) :
    ∀ k row, s.rows k = some row → Holds (fun w => ∃ p, w.profiles.filter Profile.isSelected = [p] ∧
      (w.profiles.filter Profile.listed).filter Profile.isSelected = [p] ∧
        w.handleGetProfiles = (.profiles (w.profiles.filter Profile.listed), none) ∧
          w.selectedItems.look = p.look) row.state := by
  intro k row hrow
  have hkept := holds_run (P := fun k w => Dressed (roster k) w ∧ Single w) ?_ hidle h0 hr k row hrow
  · obtain ⟨w, hw, hdressed, hsingle⟩ := hkept
    obtain ⟨p, hp, hshown, hsame⟩ := hsingle.getProfiles
    obtain ⟨q, hq, hsel, hlook⟩ := hdressed.worn
    have hmem : q ∈ w.profiles.filter Profile.isSelected := List.mem_filter.mpr ⟨hq, hsel⟩
    rw [hp] at hmem
    obtain rfl := List.mem_singleton.mp hmem
    exact ⟨w, hw, q, hp, hshown, hsame, hlook⟩
  · rintro k w req w' hreq ⟨hdressed, hsingle⟩ hw
    exact ⟨hdressed.handle (hroster k) hw, hsingle.handle (hdressed.roster ▸ hroster k) hreq hw⟩

def defaultRoster : List Nat := defaultProfiles.map Profile.avatarId

theorem nodup_defaultRoster : defaultRoster.Nodup := by decide +kernel

theorem dressed_initial : Dressed defaultRoster initial :=
  ⟨rfl, _, List.mem_cons_self, rfl, rfl⟩

theorem single_initial : Single initial where
  skills := by decide +kernel
  one := by
    refine ⟨⟨102000004, [203000001, 211000000, 204000001, 205000001], [⟨102000004, 0⟩], true, 5, 1⟩, ?_, ?_⟩
    · decide +kernel
    · decide

def newRow : Row Wardrobe where
  openId := none
  token := some "token"
  tokenCreatedAt := none
  state :=
    { (Doc.empty : Doc Wardrobe) with
      uid := some 1
      token := some "token"
      lastLoginAt := some 5
      rest := some initial }

-- Account 1 alone is stored, as DEFAULT_PLAYER dresses it.
def oneWardrobe : Accounts Wardrobe Bool where
  rows := fun k => if k = 1 then some newRow else none
  version := fun _ => 0
  clients := fun _ => .idle

theorem holds_oneWardrobe {P : Wardrobe → Prop} (h : P initial) :
    ∀ k row, oneWardrobe.rows k = some row → Holds P row.state := by
  intro k row hrow
  change (if k = 1 then some newRow else none) = some row at hrow
  split at hrow
  · cases hrow
    exact ⟨initial, rfl, h⟩
  · cases hrow

abbrev ask (req : Request) : Nat × Op Wardrobe := (1, .http "token" (endpoint req))

-- Two requests are under way at once, and the second save is of a document read before the first.
def crossing (first second : Request) : List (Event Wardrobe Bool) :=
  [.read true (ask first) 1, .read false (ask second) 1, .commit false (.save (ask second) 1 6),
    .commit true (.save (ask first) 1 7)]

theorem view_ask {req : Request} (hw : (initial.handle req).2.isSome = true) {row : Row Wardrobe}
    (hrow : row.state.rest = some initial) : ∃ d, (access initial).view (ask req) row = some d := by
  obtain ⟨w, hw⟩ := Option.isSome_iff_exists.mp hw
  refine ⟨{ rowToAccount initial 1 row with rest := some w }, ?_⟩
  change ((((rowToAccount initial 1 row).rest.getD bare).handle req).2.map fun w =>
    { rowToAccount initial 1 row with rest := some w }) = _
  rw [rest_rowToAccount hrow, Option.getD_some, hw]
  rfl

theorem run_crossing (permitted : Request → Prop) {first second : Request} (h1 : permitted first)
    (h2 : permitted second) (hw1 : (initial.handle first).2.isSome = true)
    (hw2 : (initial.handle second).2.isSome = true) :
    ∃ s, Run (Guarded (Store.Step (access initial)) (Asks permitted)) oneWardrobe (crossing first second) s := by
  have hrest : newRow.state.rest = some initial := rfl
  obtain ⟨d1, hd1⟩ := view_ask hw1 hrest
  obtain ⟨d2, hd2⟩ := view_ask hw2 hrest
  have hasks : ∀ (s : Accounts Wardrobe Bool) (i : Bool) (req : Request), permitted req →
      Asks permitted s (.read i (ask req) 1) := by
    rintro s i req hreq _ _ _ _ _ heq
    cases heq
    exact Or.inl ⟨req, hreq, rfl⟩
  have hsaves : ∀ (s : Accounts Wardrobe Bool) (i : Bool) (c : Commit Nat (Nat × Op Wardrobe) Int Int),
      Asks permitted s (.commit i c) := by
    rintro s i c _ _ _ _ _ ⟨⟩
  have hread1 := Run.next Run.start (show Guarded (Store.Step (access initial)) (Asks permitted) oneWardrobe
    (.read true (ask first) 1) _ from ⟨.read rfl rfl ⟨rfl, by decide, rfl⟩ hd1, hasks _ _ _ h1⟩)
  have hread2 := hread1.next (show Guarded _ _ _ (.read false (ask second) 1) _ from
    ⟨.read rfl rfl ⟨rfl, by decide, rfl⟩ hd2, hasks _ _ _ h2⟩)
  have hsave2 := hread2.next (show Guarded _ _ _ (.commit false (.save (ask second) 1 6)) _ from
    ⟨.save 6 rfl rfl (by rintro ⟨i, _, _, hi⟩; cases i <;> cases hi), hsaves _ _ _⟩)
  have hsave1 := hsave2.next (show Guarded _ _ _ (.commit true (.save (ask first) 1 7)) _ from
    ⟨.save 7 rfl rfl (by rintro ⟨i, _, _, hi⟩; cases i <;> cases hi), hsaves _ _ _⟩)
  exact ⟨_, hsave1⟩

theorem looks_kept_crossing : ∃ s, Run (Guarded (Store.Step (access initial)) (Asks fun _ => True)) oneWardrobe
    (crossing (.selectProfile (some 102000008)) (.changeClothes none [203000092] none)) s ∧
      ∀ k row, s.rows k = some row → Holds (Dressed defaultRoster) row.state := by
  obtain ⟨s, hs⟩ := run_crossing (fun _ => True) trivial trivial
    (show (initial.handle (.selectProfile (some 102000008))).2.isSome = true by decide +kernel)
    (show (initial.handle (.changeClothes none [203000092] none)).2.isSome = true by decide +kernel)
  exact ⟨s, hs, looks_kept (fun _ => nodup_defaultRoster) (fun _ => rfl) (holds_oneWardrobe dressed_initial) hs⟩

theorem single_selected_crossing : ∃ s, Run (Guarded (Store.Step (access initial)) (Asks Unblocked)) oneWardrobe
    (crossing (.selectProfile (some 101000001)) (.equipSkill (some 102000004) (some 406) (some 0))) s ∧
      ∀ k row, s.rows k = some row → Holds (fun w => ∃ p, w.profiles.filter Profile.isSelected = [p] ∧
        (w.profiles.filter Profile.listed).filter Profile.isSelected = [p] ∧
          w.handleGetProfiles = (.profiles (w.profiles.filter Profile.listed), none) ∧
            w.selectedItems.look = p.look) row.state := by
  have hfirst : Unblocked (.selectProfile (some 101000001)) := by
    rw [Unblocked]
    decide
  have hsecond : Unblocked (.equipSkill (some 102000004) (some 406) (some 0)) := by
    rw [Unblocked]
    decide
  obtain ⟨s, hs⟩ := run_crossing Unblocked hfirst hsecond (by decide +kernel) (by decide +kernel)
  exact ⟨s, hs, single_selected (fun _ => nodup_defaultRoster) (fun _ => rfl)
    (holds_oneWardrobe ⟨dressed_initial, single_initial⟩) hs⟩

theorem blocked_doubled : (((initial.handle (.selectProfile (some 102000008))).2.bind fun w =>
    (w.handle .getProfiles).2).map fun w => (w.profiles.filter Profile.isSelected).length) = some 2 := by
  decide +kernel

end Runs

end Wardrobe

end Account
