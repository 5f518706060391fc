import Mathlib.Data.List.Perm.Subperm
import Mathlib.Data.List.Range
import Madoka.Rooms.Membership
import Madoka.Rooms.Records

namespace Rooms

open Lib

def Member.place (m : Member) : Nat × Nat := (m.groupId, m.seat)

structure Sound (room : Room) : Prop where
  owner : room.owner ∈ room.ids
  nodup : room.ids.Nodup
  fits : room.members.length ≤ room.maxMemberNum
  group : ∀ m ∈ room.members, m.groupId = 1 ∨ m.groupId = 2
  seat : ∀ m ∈ room.members, m.seat < perTeamCap room
  apart : (room.members.map Member.place).Nodup

-- A change by the owner leaves room for the members, and each of them on a seat of the new teams.
def Roomy (s : State) : Event → Prop
  | .next i =>
    match s.ops i with
    | some (.load (.change a req) r) =>
      ∀ room ∈ s.rooms r, room.owner = a → room.state = .waiting →
        let n := orNat req.maxMemberNum room.maxMemberNum
        room.members.length ≤ n ∧ ∀ m ∈ room.members, m.seat < (n + 1) / 2
    | _ => True
  | _ => True

def changing : Option Pc → Option (Nat × ChangeReq × Nat)
  | some (.load (.change a req) r) => some (a, req, r)
  | _ => none

theorem roomy_next (s : State) (i : Nat) : (∀ x ∈ changing (s.ops i), ∀ room ∈ s.rooms x.2.2,
    room.owner = x.1 → room.state = .waiting →
      room.members.length ≤ orNat x.2.1.maxMemberNum room.maxMemberNum ∧
        ∀ m ∈ room.members, m.seat < (orNat x.2.1.maxMemberNum room.maxMemberNum + 1) / 2) ↔
    Roomy s (.next i) := by
  unfold Roomy
  dsimp only
  split
  · rename_i a req r hop
    rw [hop]
    exact ⟨fun h => h _ rfl, fun h x hx => Option.some.inj hx ▸ h⟩
  · rename_i hop
    refine iff_of_true (fun x hx => ?_) trivial
    unfold changing at hx
    split at hx
    · rename_i hop'
      exact absurd hop' (hop _ _ _)
    · cases hx

instance (s : State) (e : Event) : Decidable (Roomy s e) :=
  match e with
  | .next i => decidable_of_iff _ (roomy_next s i)
  | .call .. | .timeout _ | .fail _ | .expire _ => isTrue trivial

variable {room : Room}

theorem Sound.nonempty (h : Sound room) : 0 < room.members.length := by
  obtain ⟨m, hm, -⟩ := List.mem_map.mp h.owner
  exact List.length_pos_of_mem hm

theorem Sound.max_ne_zero (h : Sound room) : room.maxMemberNum ≠ 0 := by
  have hpos := h.nonempty
  have hfits := h.fits
  omega

theorem perTeamCap_eq (h : room.maxMemberNum ≠ 0) : perTeamCap room = (room.maxMemberNum + 1) / 2 := by
  simp only [perTeamCap, orNat, if_neg h, numTeams]
  omega

theorem Sound.group_eq (h : Sound room) {m : Member} (hm : m ∈ room.members) : m.group = m.groupId := by
  have hg := h.group m hm
  unfold Member.group
  split
  · omega
  · rfl

theorem teamCount_add_le (ms : List Member) :
    (ms.filter fun m => m.group = 1).length + (ms.filter fun m => m.group = 2).length ≤ ms.length := by
  induction ms with
  | nil => exact Nat.le_refl 0
  | cons m ms ih =>
    by_cases h1 : m.group = 1
    · have h2 : ¬ m.group = 2 := by omega
      simp only [List.filter_cons, h1, List.length_cons, decide_true, if_true] at ih ⊢
      simp only [show decide ((1 : Nat) = 2) = false from rfl, Bool.false_eq_true, if_false]
      omega
    · by_cases h2 : m.group = 2
      · simp only [List.filter_cons, h2, List.length_cons, decide_true, if_true] at ih ⊢
        simp only [show decide ((2 : Nat) = 1) = false from rfl, Bool.false_eq_true, if_false]
        omega
      · simp only [List.filter_cons, h1, h2, decide_false, Bool.false_eq_true, if_false,
          List.length_cons] at ih ⊢
        omega

theorem pickTeam_cases : pickTeam room = 1 ∨ pickTeam room = 2 := by
  unfold pickTeam
  split
  · exact Or.inr rfl
  · exact Or.inl rfl

theorem pickTeam_half : 2 * teamCount room (pickTeam room) ≤ room.members.length := by
  have hsum := teamCount_add_le room.members
  change teamCount room 1 + teamCount room 2 ≤ _ at hsum
  unfold pickTeam
  split <;> omega

theorem freeSeat_spec {g seat : Nat} (h : freeSeat room g = some seat) :
    seat < perTeamCap room ∧ ∀ m ∈ room.members, m.group = g → m.seat ≠ seat := by
  have hmem := List.mem_of_find?_eq_some h
  have hfree := List.find?_some h
  refine ⟨List.mem_range.mp hmem, fun m hm hg hs => ?_⟩
  refine of_decide_eq_true hfree (List.mem_map.mpr ⟨m, ?_, hs⟩)
  exact List.mem_filter.mpr ⟨hm, decide_eq_true hg⟩

-- A team that is not full has a free seat: the seats taken are fewer than the seats there are.
theorem freeSeat_of_lt {g : Nat} (h : teamCount room g < perTeamCap room) :
    ∃ seat, freeSeat room g = some seat := by
  rw [← Option.isSome_iff_exists]
  by_contra hnone
  have hfull : ∀ seat ∈ List.range (perTeamCap room),
      seat ∈ (room.members.filter fun m => m.group = g).map Member.seat := by
    have hall := List.find?_eq_none.mp (Option.not_isSome_iff_eq_none.mp hnone)
    exact fun seat hseat => by simpa [and_assoc] using hall seat hseat
  have hle := ((List.nodup_range).subperm hfull).length_le
  rw [List.length_range, List.length_map] at hle
  change perTeamCap room ≤ teamCount room g at hle
  omega

theorem sound_newRoom (account : Account) (req : CreateReq) (id now : Nat) :
    Sound (newRoom account req id now) := by
  have hpos : 1 ≤ (newRoom account req id now).maxMemberNum := by
    change 1 ≤ orNat req.maxMemberNum defaultMaxMembers
    unfold orNat
    split
    · split
      · decide
      · omega
    · decide
  constructor
  · exact List.mem_singleton_self _
  · exact List.nodup_singleton _
  · exact hpos
  · rintro m hm
    obtain rfl := List.mem_singleton.mp hm
    exact Or.inl rfl
  · rintro m hm
    obtain rfl := List.mem_singleton.mp hm
    rw [perTeamCap_eq (by omega)]
    change 0 < _
    omega
  · exact List.nodup_singleton _

theorem sound_joined {account : Account} (h : Sound room) (hnew : account.uid ∉ room.ids)
    (hfree : room.members.length < room.maxMemberNum) : Sound (joined room account) := by
  have hcap := perTeamCap_eq h.max_ne_zero
  have hhalf := @pickTeam_half room
  obtain ⟨seat, hseat⟩ := @freeSeat_of_lt room (pickTeam room) (by omega)
  obtain ⟨hlt, hother⟩ := freeSeat_spec hseat
  have hmembers : (joined room account).members =
      room.members ++ [memberFromAccount account (pickTeam room) seat roleMember] := by
    simp [joined, hseat]
  constructor
  · rw [ids_joined]
    exact List.mem_append_left _ h.owner
  · rw [ids_joined]
    refine List.Nodup.append h.nodup (List.nodup_singleton _) ?_
    simpa using hnew
  · rw [hmembers, List.length_append]
    exact hfree
  · intro m hm
    rw [hmembers, List.mem_append, List.mem_singleton] at hm
    rcases hm with hm | rfl
    · exact h.group m hm
    · exact pickTeam_cases
  · intro m hm
    rw [hmembers, List.mem_append, List.mem_singleton] at hm
    rcases hm with hm | rfl
    · exact h.seat m hm
    · exact hlt
  · rw [hmembers, List.map_append]
    refine List.Nodup.append h.apart (List.nodup_singleton _) fun p hp hq => ?_
    obtain ⟨m, hm, rfl⟩ := List.mem_map.mp hp
    have heq : m.place = (pickTeam room, seat) := List.mem_singleton.mp hq
    refine hother m hm ?_ (Prod.ext_iff.mp heq).2
    rw [h.group_eq hm]
    exact (Prod.ext_iff.mp heq).1

theorem sound_without {a : Nat} (h : Sound room) (hne : room.owner ≠ a) : Sound (without room a) := by
  have hsub : (without room a).members.Sublist room.members := List.eraseP_sublist
  constructor
  · rw [ids_without]
    exact (List.mem_erase_of_ne hne).mpr h.owner
  · rw [ids_without]
    exact h.nodup.erase a
  · exact Nat.le_trans hsub.length_le h.fits
  · exact fun m hm => h.group m (hsub.subset hm)
  · exact fun m hm => h.seat m (hsub.subset hm)
  · exact h.apart.sublist (hsub.map _)

theorem members_changed (req : ChangeReq) : (changed room req).members = room.members ∧
    (changed room req).owner = room.owner ∧
    (changed room req).maxMemberNum = orNat req.maxMemberNum room.maxMemberNum := by
  unfold changed
  split <;> exact ⟨rfl, rfl, rfl⟩

theorem sound_changed {req : ChangeReq} (h : Sound room)
    (hfits : room.members.length ≤ orNat req.maxMemberNum room.maxMemberNum)
    (hseat : ∀ m ∈ room.members, m.seat < (orNat req.maxMemberNum room.maxMemberNum + 1) / 2) :
    Sound (changed room req) := by
  obtain ⟨hmembers, howner, hmax⟩ := @members_changed room req
  constructor
  · rw [howner, ids_changed]
    exact h.owner
  · rw [ids_changed]
    exact h.nodup
  · rw [hmembers, hmax]
    exact hfits
  · rw [hmembers]
    exact h.group
  · have hpos := h.nonempty
    rw [hmembers, perTeamCap_eq (by omega), hmax]
    exact hseat
  · rw [hmembers]
    exact h.apart

theorem mem_updateFirst {a : Nat} {f : Member → Member} {ms : List Member} {m : Member}
    (h : m ∈ updateFirst a f ms) : m ∈ ms ∨ ∃ m₀ ∈ ms, m₀.accountId = a ∧ m = f m₀ := by
  induction ms with
  | nil => cases h
  | cons x xs ih =>
    simp only [updateFirst] at h
    split at h
    · next hx =>
      rcases List.mem_cons.mp h with rfl | h
      · exact Or.inr ⟨x, List.mem_cons_self, hx, rfl⟩
      · exact Or.inl (List.mem_cons_of_mem _ h)
    · rcases List.mem_cons.mp h with rfl | h
      · exact Or.inl List.mem_cons_self
      · rcases ih h with h | ⟨m₀, hm₀, ha, rfl⟩
        · exact Or.inl (List.mem_cons_of_mem _ h)
        · exact Or.inr ⟨m₀, List.mem_cons_of_mem _ hm₀, ha, rfl⟩

theorem length_updateFirst (a : Nat) (f : Member → Member) (ms : List Member) :
    (updateFirst a f ms).length = ms.length := by
  induction ms with
  | nil => rfl
  | cons m ms ih =>
    simp only [updateFirst]
    split
    · rfl
    · rw [List.length_cons, List.length_cons, ih]

theorem place_updateFirst (a : Nat) {f : Member → Member} (hf : ∀ m, (f m).place = m.place)
    (ms : List Member) : (updateFirst a f ms).map Member.place = ms.map Member.place := by
  induction ms with
  | nil => rfl
  | cons m ms ih =>
    simp only [updateFirst]
    split
    · rw [List.map_cons, List.map_cons, hf]
    · rw [List.map_cons, List.map_cons, ih]

theorem place_nodup_updateFirst {a : Nat} {p : Nat × Nat} {f : Member → Member}
    (hf : ∀ m, (f m).place = p) {ms : List Member} (hids : (ms.map Member.accountId).Nodup)
    (hapart : (ms.map Member.place).Nodup) (hfree : ∀ m ∈ ms, m.accountId ≠ a → m.place ≠ p) :
    ((updateFirst a f ms).map Member.place).Nodup := by
  induction ms with
  | nil => exact List.nodup_nil
  | cons m ms ih =>
    rw [List.map_cons, List.nodup_cons] at hids hapart
    simp only [updateFirst]
    split
    · next ha =>
      rw [List.map_cons, List.nodup_cons, hf]
      refine ⟨fun hp => ?_, hapart.2⟩
      obtain ⟨m', hm', hp'⟩ := List.mem_map.mp hp
      refine hfree m' (List.mem_cons_of_mem _ hm') (fun ha' => hids.1 ?_) hp'
      exact List.mem_map.mpr ⟨m', hm', ha'.trans ha.symm⟩
    · next ha =>
      rw [List.map_cons, List.nodup_cons]
      refine ⟨fun hp => ?_, ih hids.2 hapart.2 fun m' hm' => hfree m' (List.mem_cons_of_mem _ hm')⟩
      obtain ⟨m', hm', hp'⟩ := List.mem_map.mp hp
      rcases mem_updateFirst hm' with hold | ⟨m₀, -, -, rfl⟩
      · exact hapart.1 (List.mem_map.mpr ⟨m', hold, hp'⟩)
      · rw [hf] at hp'
        exact hfree m List.mem_cons_self ha hp'.symm

theorem sound_readied {a : Nat} {ready : Bool} (h : Sound room) : Sound (readied room a ready) := by
  constructor
  · rw [ids_readied]
    exact h.owner
  · rw [ids_readied]
    exact h.nodup
  · exact (length_updateFirst _ _ _).trans_le h.fits
  · intro m hm
    rcases mem_updateFirst hm with hold | ⟨m₀, hm₀, -, rfl⟩
    · exact h.group m hold
    · exact h.group m₀ hm₀
  · intro m hm
    rcases mem_updateFirst hm with hold | ⟨m₀, hm₀, -, rfl⟩
    · exact h.seat m hold
    · exact h.seat m₀ hm₀
  · refine (place_updateFirst a ?_ room.members).symm ▸ h.apart
    exact fun m => rfl

theorem sound_seated {a g seat : Nat} (h : Sound room) (hg : g = 1 ∨ g = 2)
    (hseat : seat < perTeamCap room)
    (hfree : ∀ m ∈ room.members, m.accountId ≠ a → m.group = g → m.seat ≠ seat) :
    Sound (seated room a g seat) := by
  constructor
  · rw [ids_seated]
    exact h.owner
  · rw [ids_seated]
    exact h.nodup
  · exact (length_updateFirst _ _ _).trans_le h.fits
  · intro m hm
    rcases mem_updateFirst hm with hold | ⟨m₀, -, -, rfl⟩
    · exact h.group m hold
    · exact hg
  · intro m hm
    rcases mem_updateFirst hm with hold | ⟨m₀, -, -, rfl⟩
    · exact h.seat m hold
    · exact hseat
  · refine place_nodup_updateFirst (p := (g, seat)) (fun m => rfl) h.nodup h.apart ?_
    intro m hm hne hp
    obtain ⟨hpg, hps⟩ := Prod.ext_iff.mp hp
    exact hfree m hm hne ((h.group_eq hm).trans hpg) hps

theorem sound_edit {s : State} {i r : Nat} {op : Op} {rec : Room} (hroomy : Roomy s (.next i))
    (hop : s.ops i = some (.load op r)) (hr : s.rooms r = some room) (h : Sound room)
    (hedit : Edit room op rec) : Sound rec := by
  cases hedit with
  | join hw hcode hnew hfree => exact sound_joined h hnew hfree
  | leave hne hmore => exact sound_without h hne
  | kick howner hne hin => exact sound_without h (howner ▸ hne.symm)
  | change howner hw =>
    simp only [Roomy, hop] at hroomy
    obtain ⟨hfits, hseat⟩ := hroomy room hr howner hw
    exact sound_changed h hfits hseat
  | setReady hin => exact sound_readied h
  | switchSeat hw hin hg hseat hfree => exact sound_seated h hg hseat hfree
  | startMatch howner hw => exact ⟨h.owner, h.nodup, h.fits, h.group, h.seat, h.apart⟩
  | reenter hgame => exact ⟨h.owner, h.nodup, h.fits, h.group, h.seat, h.apart⟩

theorem records_sound {es : List Event} {s : State} {r : Nat} (h : Run (Guarded Step Roomy) start es s)
    (hr : s.rooms r = some room) : Sound room :=
  held_invariant (fun _ _ account req now _ _ => sound_newRoom account req _ now)
    (fun _ _ _ _ _ _ hg hop hroom hs he => sound_edit hg hop hroom hs he) h
    (Or.inl ⟨r, hr⟩)

def resized (n : Nat) : ChangeReq :=
  ⟨1, none, none, none, some n, none, none, none, none, none, none⟩

-- The owner opens a room, a guest joins, and the owner lowers the capacity to n.
def shrinks (n : Nat) : List Event :=
  [.call 0 (.create (guest 1) plain 0), .next 0, .next 0, .next 0, .next 0,
    .call 1 (.join (guest 2) ⟨1, ""⟩), .next 1, .next 1, .next 1, .next 1, .next 1,
    .call 2 (.change 1 (resized n)), .next 2, .next 2, .next 2, .next 2]

theorem records_sound_of_two : ∃ s room, Run (Guarded Step Roomy) start (shrinks 2) s ∧
    s.rooms 1 = some room ∧ room.maxMemberNum = 2 ∧ Sound room := by
  have hrun : (((shrinks 2).foldlM (fun s e => if Roomy s e then step s e else none) start).bind
      fun s => (s.rooms 1).map Room.maxMemberNum) = some 2 := by
    decide
  obtain ⟨s, hs, hmax⟩ := Option.bind_eq_some_iff.mp hrun
  obtain ⟨room, hroom, hmax⟩ := Option.map_eq_some_iff.mp hmax
  exact ⟨s, room, run_of_checked hs, hroom, hmax, records_sound (run_of_checked hs) hroom⟩

theorem shrunk_unsound : ¬ ∀ es s r room, Run Step start es s → s.rooms r = some room → Sound room := by
  intro hall
  have hrun : (((shrinks 1).foldlM step start).bind
      fun s => (s.rooms 1).map fun room => (room.maxMemberNum, room.members.length)) = some (1, 2) := by
    decide
  obtain ⟨s, hs, hnums⟩ := Option.bind_eq_some_iff.mp hrun
  obtain ⟨room, hroom, hnums⟩ := Option.map_eq_some_iff.mp hnums
  have hfits := (hall (shrinks 1) s 1 room (run_of_foldlM hs) hroom).fits
  rw [Prod.mk.injEq] at hnums
  omega

end Rooms
