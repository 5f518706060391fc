import Mathlib.Data.List.Perm.Basic
import Madoka.Lib.Weight
import Madoka.MatchServer.Broadcasts

namespace MatchServer

open Lib

section Pop

variable {owner o n : Nat} {walls : List IceWall} {x : IceWall}

def ownedBy (owner : Nat) (walls : List IceWall) : List IceWall :=
  walls.filter fun x => x.owner == owner

theorem ownerWallCount_eq : ownerWallCount owner walls = (ownedBy owner walls).length :=
  List.countP_eq_length_filter

theorem ownedBy_append (l l' : List IceWall) :
    ownedBy owner (l ++ l') = ownedBy owner l ++ ownedBy owner l' :=
  List.filter_append ..

theorem ownedBy_eraseP : ownedBy owner (walls.eraseP fun x => x.owner == owner) =
    (ownedBy owner walls).tail := by
  induction walls with
  | nil => rfl
  | cons y l ih =>
    by_cases hy : y.owner = owner
    · simp [ownedBy, hy]
    · simpa [ownedBy, hy] using ih

theorem ownedBy_eraseP_of_ne (h : o ≠ owner) :
    ownedBy o (walls.eraseP fun x => x.owner == owner) = ownedBy o walls := by
  induction walls with
  | nil => rfl
  | cons y l ih =>
    by_cases hy : y.owner = owner
    · have hne : ¬ owner = o := fun hc => h hc.symm
      simp [ownedBy, hy, hne]
    · simp only [List.eraseP_cons, show (y.owner == owner) = false by simpa using hy, cond_false]
      by_cases ho : y.owner = o
      · simpa [ownedBy, ho] using ih
      · simpa [ownedBy, ho] using ih

theorem popOldestWalls_succ (h : walls.find? (fun y => y.owner == owner) = some x) :
    popOldestWalls owner (n + 1) walls =
      ((popOldestWalls owner n (walls.eraseP fun y => y.owner == owner)).1,
        x.id :: (popOldestWalls owner n (walls.eraseP fun y => y.owner == owner)).2) := by
  rw [popOldestWalls, h]

theorem popOldestWalls_none (h : walls.find? (fun y => y.owner == owner) = none) :
    popOldestWalls owner n walls = (walls, []) := by
  cases n with
  | zero => rfl
  | succ n => rw [popOldestWalls, h]

theorem ownedBy_of_none (h : walls.find? (fun y => y.owner == owner) = none) :
    ownedBy owner walls = [] :=
  List.filter_eq_nil_iff.mpr fun y hy => List.find?_eq_none.mp h y hy

theorem popped_owner : ownedBy owner (popOldestWalls owner n walls).1 =
    (ownedBy owner walls).drop n := by
  induction n generalizing walls with
  | zero => rfl
  | succ n ih =>
    cases hf : walls.find? (fun y => y.owner == owner) with
    | none => rw [popOldestWalls_none hf, ownedBy_of_none hf, List.drop_nil]
    | some y => rw [popOldestWalls_succ hf, ih, ownedBy_eraseP, List.drop_tail]

theorem popped_other (h : o ≠ owner) : ownedBy o (popOldestWalls owner n walls).1 =
    ownedBy o walls := by
  induction n generalizing walls with
  | zero => rfl
  | succ n ih =>
    cases hf : walls.find? (fun y => y.owner == owner) with
    | none => rw [popOldestWalls_none hf]
    | some y => rw [popOldestWalls_succ hf, ih, ownedBy_eraseP_of_ne h]

theorem popped_sublist : (popOldestWalls owner n walls).1.Sublist walls := by
  induction n generalizing walls with
  | zero => exact List.Sublist.refl _
  | succ n ih =>
    cases hf : walls.find? (fun y => y.owner == owner) with
    | none => rw [popOldestWalls_none hf]
    | some y =>
      rw [popOldestWalls_succ hf]
      exact ih.trans List.eraseP_sublist

theorem perm_of_find {q : IceWall → Bool} (h : walls.find? q = some x) :
    (x :: walls.eraseP q).Perm walls := by
  induction walls with
  | nil => cases h
  | cons y l ih =>
    cases hy : q y with
    | true =>
      rw [List.find?_cons_of_pos hy, Option.some.injEq] at h
      rw [List.eraseP_cons_of_pos hy, h]
    | false =>
      rw [List.find?_cons_of_neg (by simp [hy])] at h
      rw [List.eraseP_cons_of_neg (by simp [hy])]
      exact (List.Perm.swap y x _).trans ((ih h).cons y)

theorem popped_perm : ((popOldestWalls owner n walls).2 ++
    (popOldestWalls owner n walls).1.map IceWall.id).Perm (walls.map IceWall.id) := by
  induction n generalizing walls with
  | zero => exact List.Perm.refl _
  | succ n ih =>
    cases hf : walls.find? (fun y => y.owner == owner) with
    | none => rw [popOldestWalls_none hf, List.nil_append]
    | some y =>
      rw [popOldestWalls_succ hf, List.cons_append]
      exact (ih.cons y.id).trans ((perm_of_find hf).map IceWall.id)

end Pop

namespace Match

def nextWall (g : Match) (owner : Nat) (req : PlaceIcewallReq) (now : Int) : IceWall :=
  let id := wallEntityBase ||| ((g.wallSeq + 1) % 2 ^ 32)
  ⟨id, id, owner, req.pos, req.rot, req.wallType, glooMaxHP, wallIntact, now⟩

def excess (g : Match) (wall : IceWall) : Nat :=
  ownerWallCount wall.owner (g.walls ++ [wall]) - glooWallCap

-- A wall goes up, and the oldest of its owner give way.
def raise (g : Match) (wall : IceWall) : Match :=
  { g with
    wallSeq := (g.wallSeq + 1) % 2 ^ 32
    walls := (popOldestWalls wall.owner (g.excess wall) (g.walls ++ [wall])).1 }

def evicted (g : Match) (wall : IceWall) : List Nat :=
  (popOldestWalls wall.owner (g.excess wall) (g.walls ++ [wall])).2

end Match

namespace Core

variable {w : World} {c d : Core} {s : SessionId} {m : MatchRef} {p : Packet}
  {req : PlaceIcewallReq}

theorem placeWall_eq : c.placeWall s m req =
    c.tell m (fun g => { g with
        wallSeq := ((c.ms m).raise ((c.ms m).nextWall (c.ss s).entityID req c.now)).wallSeq
        walls := ((c.ms m).raise ((c.ms m).nextWall (c.ss s).entityID req c.now)).walls })
      (.addIcewall ((c.ms m).nextWall (c.ss s).entityID req c.now) ::
        ((c.ms m).evicted ((c.ms m).nextWall (c.ss s).entityID req c.now)).map .removeIcewall) := by
  rw [tell, List.foldl_cons, List.foldl_map]
  rfl

theorem shows_raise {g : Match} {wall : IceWall}
    (hd : ((g.walls ++ [wall]).map IceWall.id).Nodup) :
    insert wall.id (g.shows .walls) \ (g.evicted wall).toFinset = (g.raise wall).shows .walls := by
  have hperm := @popped_perm wall.owner (g.excess wall) (g.walls ++ [wall])
  have hdis := (List.nodup_append.mp (hperm.nodup_iff.mpr hd)).2.2
  ext i
  have hmem : i ∈ (g.walls ++ [wall]).map IceWall.id ↔ i ∈ g.evicted wall ∨
      i ∈ (g.raise wall).walls.map IceWall.id := by
    rw [← hperm.mem_iff, List.mem_append]
    rfl
  simp only [Match.shows, Finset.mem_sdiff, Finset.mem_insert, List.mem_toFinset]
  simp only [List.map_append, List.map_cons, List.map_nil, List.mem_append,
    List.mem_singleton] at hmem
  constructor
  · rintro ⟨hin, hout⟩
    exact (hmem.mp hin.symm).resolve_left hout
  · intro hin
    exact ⟨(hmem.mpr (Or.inr hin)).symm, fun hout => hdis i hout i hin rfl⟩

theorem airs_placeWall (hd : (((c.ms m).walls ++ [(c.ms m).nextWall (c.ss s).entityID req c.now]).map
    IceWall.id).Nodup) : Airs .walls c (c.placeWall s m req) := by
  rw [placeWall_eq]
  refine airs_tell rfl ?_
  rw [List.flatMap_cons, mirror_append, signs_removeIcewalls, mirror_hide]
  exact shows_raise hd

theorem ms_placeWall : ((c.placeWall s m req).ms m).walls =
      ((c.ms m).raise ((c.ms m).nextWall (c.ss s).entityID req c.now)).walls ∧
    ((c.placeWall s m req).ms m).wallSeq = ((c.ms m).wallSeq + 1) % 2 ^ 32 := by
  rw [placeWall_eq, ms_tell_self]
  exact ⟨rfl, rfl⟩

theorem ms_placeWall_of_ne {m' : MatchRef} (h : m' ≠ m) :
    (c.placeWall s m req).ms m' = c.ms m' := by
  rw [placeWall_eq, ms_tell_of_ne h]

-- The gloo walls are infinite.
def glooFree (w : World) (c : Core) (m : MatchRef) : Prop :=
  w.cfg.infiniteGloo = true ∨ (c.ms m).settings.unlimitedAmmo = true

instance : Decidable (c.glooFree w m) := inferInstanceAs (Decidable (_ ∨ _))

-- A placement before its wall goes up.
def charged (w : World) (c : Core) (s : SessionId) (m : MatchRef) : Core :=
  if c.glooFree w m then c
  else c.deductGloo s m ((c.ss s).kit.glooCount c.order).1 ((c.ss s).kit.glooCount c.order).2

theorem handlePlaceIcewall_eq (hreq : parsePlaceIcewallReq p.payload = some req)
    (hcount : ((c.ss s).kit.glooCount c.order).2 ≠ 0) (hm : (c.ss s).matchRef = some m) :
    c.handlePlaceIcewall w s p = (c.charged w s m).placeWall s m req := by
  have hbody : c.handlePlaceIcewall w s p =
      if w.cfg.infiniteGloo = true ∨ (c.ms m).settings.unlimitedAmmo = true then c.placeWall s m req
      else (c.deductGloo s m ((c.ss s).kit.glooCount c.order).1
        ((c.ss s).kit.glooCount c.order).2).placeWall s m req := by
    unfold handlePlaceIcewall withMatch
    rw [hreq, hm]
    exact if_neg hcount
  rw [hbody, charged]
  by_cases hfree : c.glooFree w m
  · rw [if_pos hfree]
    exact if_pos hfree
  · rw [if_neg hfree]
    exact if_neg hfree

theorem handlePlaceIcewall_idle (h : parsePlaceIcewallReq p.payload = none ∨
    ((c.ss s).kit.glooCount c.order).2 = 0 ∨ (c.ss s).matchRef = none) :
    c.handlePlaceIcewall w s p = c := by
  unfold handlePlaceIcewall withMatch
  split
  · rfl
  · rename_i hreq
    rw [hreq] at h
    dsimp only
    split
    · rfl
    · rename_i hcount
      rw [(h.resolve_left (by simp)).resolve_left hcount]

theorem keeps_charged : Keeps [.kit] c (c.charged w s m) :=
  Frame.ite (fun _ => Frame.refl c) fun _ => keeps_deductGloo

theorem mute_charged {x : Topic} : Mute x c (c.charged w s m) :=
  Mute.ite (fun _ => Mute.refl) fun _ => mute_deductGloo

theorem airs_tick_walls (hd : ∀ m, (c.ms m).Distinct .walls) : Airs .walls c (c.tick w m) := by
  by_cases hp : (c.ms m).players = []
  · rw [tick, if_pos hp]
    exact airs_of_mute mute_stopLoop (shows_of_keeps keeps_stopLoop (by decide) (by decide))
  · have hmute : Mute .walls (c.beforeSweep w m) (c.tick w m) := by
      rw [tick_eq hp]
      exact ((((mute_afterSweep.trans mute_stepKnock).trans mute_stepRescue).trans
        (mute_stepFlags (by decide))).trans (Mute.foldl (fun _ _ => mute_stepPlayer) _))
    have hkeeps : Keeps (.flags :: .kit :: .net :: .roster :: .body :: woundParts)
        (c.beforeSweep w m) (c.tick w m) := by
      rw [tick_eq hp]
      refine Frame.trans (Frame.trans (Frame.trans (Frame.trans
        (keeps_sweepDisconnects.mono (by decide)) (keeps_stepKnock.mono (by decide)))
        (keeps_stepRescue.mono (by decide))) (keeps_stepFlags.mono (by decide)))
        (Frame.foldl (fun _ _ => keeps_stepPlayer.mono (by decide)) _ _)
    refine (dims_beforeSweep.airs hd).mute hmute fun m' => ?_
    have hw := walls_of_keeps hkeeps (by decide) m'
    rw [Prod.mk.injEq] at hw
    simp only [Match.shows, hw.1]

theorem left_of_keeps {F : List Part} (h : Keeps F c d) (hF : Part.walls ∉ F) (m : MatchRef) :
    Left (c.ms m).walls (d.ms m).walls ∧ (d.ms m).wallSeq = (c.ms m).wallSeq := by
  have hw := walls_of_keeps h hF m
  rw [Prod.mk.injEq] at hw
  rw [hw.1]
  exact ⟨⟨List.Sublist.refl _, fun hs => hs⟩, hw.2⟩

end Core

namespace Server

open MatchServer.Core

variable {w : World} {v v' : Server} {e : Event} {s : SessionId} {m : MatchRef} {c : Core}
  {req : PlaceIcewallReq}

def raising (v : Server) (e : Event) : Option (SessionId × MatchRef × PlaceIcewallReq) :=
  match v.handles e.act .addIcewall with
  | some (s, p, m) =>
    match parsePlaceIcewallReq p.payload with
    | some req =>
      if ((v.core.ss s).kit.glooCount e.moment.order).2 = 0 then none else some (s, m, req)
    | none => none
  | none => none

def wallOf (v : Server) (e : Event) (s : SessionId) (m : MatchRef) (req : PlaceIcewallReq) : IceWall :=
  (v.core.ms m).nextWall (v.core.ss s).entityID req e.moment.now

def raised (m : MatchRef) (v : Server) (e : Event) : List IceWall :=
  match v.raising e with
  | some (s, m', req) => if m' = m then [v.wallOf e s m req] else []
  | none => []

theorem raising_eq_some : v.raising e = some (s, m, req) ↔ ∃ p, v.routed e.act = some (s, p) ∧
    cmdOf p.cmd = .addIcewall ∧ (v.core.ss s).matchRef = some m ∧
    parsePlaceIcewallReq p.payload = some req ∧
    ((v.core.ss s).kit.glooCount e.moment.order).2 ≠ 0 := by
  unfold raising handles
  constructor
  · intro h
    split at h
    · rename_i s' p m' hh
      split at hh
      · rename_i s'' p' hr
        rw [Option.ite_none_right_eq_some, Option.map_eq_some_iff] at hh
        obtain ⟨hcmd, m'', hm, heq⟩ := hh
        cases heq
        split at h
        · rename_i req' hreq
          rw [Option.ite_none_left_eq_some, Option.some.injEq, Prod.mk.injEq, Prod.mk.injEq] at h
          obtain ⟨hc, rfl, rfl, rfl⟩ := h
          exact ⟨p, hr, hcmd, hm, hreq, hc⟩
        · cases h
      · cases hh
    · cases h
  · rintro ⟨p, hr, hcmd, hm, hreq, hc⟩
    simp [hr, hcmd, hm, hreq, hc]

theorem raise_step (h : v.Step w e v') (hr : v.raising e = some (s, m, req)) :
    ∃ c, v.Begins e.moment c ∧ v'.core = (c.charged w s m).placeWall s m req := by
  obtain ⟨p, hrouted, hcmd, hm, hreq, hc⟩ := raising_eq_some.mp hr
  obtain ⟨c, hb, ⟨s', p', hr', hv'⟩ | ⟨m', hact, -⟩ | ⟨hnone, -⟩⟩ := acts h
  · obtain ⟨rfl, rfl⟩ := Prod.mk.inj (Option.some.inj (hr'.symm.trans hrouted))
    refine ⟨c, hb, ?_⟩
    rw [hv', Core.route, hcmd]
    refine handlePlaceIcewall_eq hreq ?_ ((matchRef_of_keeps hb.keeps (by decide) s').trans hm)
    rw [hb.kit, hb.order]
    exact hc
  · rw [hact] at hrouted
    cases hrouted
  · exact absurd (hnone.symm.trans hrouted) (by simp)

theorem route_idle {p : Packet} (hb : v.Begins e.moment c) (hrouted : v.routed e.act = some (s, p))
    (hr : v.raising e = none) (hcmd : cmdOf p.cmd = .addIcewall) : c.route w s p = c := by
  have hidle : c.handlePlaceIcewall w s p = c := by
    refine handlePlaceIcewall_idle ?_
    by_contra hne
    rw [not_or, not_or] at hne
    obtain ⟨req, hreq⟩ := Option.ne_none_iff_exists'.mp hne.1
    obtain ⟨m, hm⟩ := Option.ne_none_iff_exists'.mp hne.2.2
    rw [hb.kit, hb.order] at hne
    have hsome : v.raising e = some (s, m, req) := raising_eq_some.mpr ⟨p, hrouted, hcmd,
      (matchRef_of_keeps hb.keeps (by decide) s).symm.trans hm, hreq, hne.2.1⟩
    rw [hr] at hsome
    cases hsome
  rw [Core.route, hcmd]
  exact hidle

theorem left_step (h : v.Step w e v') (hr : v.raising e = none) (m : MatchRef) :
    Left (v.core.ms m).walls (v'.core.ms m).walls ∧
      (v'.core.ms m).wallSeq = (v.core.ms m).wallSeq := by
  obtain ⟨c, hb, ⟨s, p, hrouted, hv'⟩ | ⟨m', -, -, hv'⟩ | ⟨-, -, -, F, hk, hF⟩⟩ := acts h
  · rw [← hb.ms, hv']
    by_cases hcmd : cmdOf p.cmd = .addIcewall
    · rw [route_idle hb hrouted hr hcmd]
      exact ⟨⟨List.Sublist.refl _, fun hs => hs⟩, rfl⟩
    · by_cases hcmd' : cmdOf p.cmd = .icewallTakeDamage
      · rw [Core.route, hcmd']
        have hf := (@dims_handleIcewallDamage c s .walls p).fades m
        exact ⟨hf.walls, hf.wallSeq⟩
      · refine left_of_keeps (keeps_route (w := w) (c := c) (s := s) (p := p)) ?_ m
        revert hcmd hcmd'
        cases cmdOf p.cmd <;> decide
  · rw [← hb.ms, hv']
    have hf := @fades_tick w c m' m
    exact ⟨hf.walls, hf.wallSeq⟩
  · rw [← hb.ms]
    exact left_of_keeps hk (fun hm => hF _ hm (by decide)) m

end Server

end MatchServer
