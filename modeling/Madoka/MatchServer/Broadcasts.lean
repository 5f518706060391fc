import Madoka.MatchServer.Runs
import Madoka.MatchServer.Announcements

namespace MatchServer

open Lib

def IceWall.tag (x : IceWall) : Nat × Nat := (x.owner, x.id)

def IceWall.crack (x : IceWall) (hp : Nat) : IceWall :=
  { x with hp := hp, state := wallStateForHP hp }

structure IceWall.Sound (x : IceWall) : Prop where
  pos : 0 < x.hp
  max : x.hp ≤ glooMaxHP
  state : x.state = wallStateForHP x.hp

-- What is left of walls, some of which may be cracked.
structure Left (walls walls' : List IceWall) : Prop where
  tags : (walls'.map IceWall.tag).Sublist (walls.map IceWall.tag)
  sound : (∀ x ∈ walls, x.Sound) → ∀ x ∈ walls', x.Sound

namespace Match

-- No wall is raised and no flag planted.
structure Fades (g h : Match) : Prop where
  walls : Left g.walls h.walls
  wallSeq : h.wallSeq = g.wallSeq
  flags : ∀ o fo, h.flags.lookup o = some fo → g.flags.lookup o = some fo
  flagSeq : h.flagSeq = g.flagSeq

-- No two things that stand have one id.
def Distinct (x : Topic) (g : Match) : Prop :=
  match x with
  | .walls => (g.walls.map IceWall.id).Nodup
  | .flags => ∀ o o' fo fo', g.flags.lookup o = some fo → g.flags.lookup o' = some fo' →
      fo.id = fo'.id → o = o'

variable {g h k : Match} {x : Topic}

theorem Fades.refl (g : Match) : g.Fades g :=
  ⟨⟨List.Sublist.refl _, fun h => h⟩, rfl, fun _ _ h => h, rfl⟩

theorem Fades.trans (h1 : g.Fades h) (h2 : h.Fades k) : g.Fades k where
  walls := ⟨h2.walls.tags.trans h1.walls.tags, fun hs => h2.walls.sound (h1.walls.sound hs)⟩
  wallSeq := h2.wallSeq.trans h1.wallSeq
  flags := fun o fo hfo => h1.flags o fo (h2.flags o fo hfo)
  flagSeq := h2.flagSeq.trans h1.flagSeq

theorem fades_of_eq (hw : (h.walls, h.wallSeq) = (g.walls, g.wallSeq))
    (hf : (h.flags, h.flagSeq) = (g.flags, g.flagSeq)) : g.Fades h := by
  rw [Prod.mk.injEq] at hw hf
  refine ⟨?_, hw.2, fun o fo hfo => ?_, hf.2⟩
  · rw [hw.1]
    exact (Fades.refl g).walls
  · rwa [hf.1] at hfo

theorem ids_of_tags (l : List IceWall) : (l.map IceWall.tag).map Prod.snd = l.map IceWall.id := by
  rw [List.map_map]
  rfl

theorem Fades.distinct (h : g.Fades k) (hd : g.Distinct x) : k.Distinct x := by
  cases x with
  | walls =>
    have hsub := h.walls.tags.map Prod.snd
    rw [ids_of_tags, ids_of_tags] at hsub
    exact hsub.nodup hd
  | flags => exact fun o o' fo fo' ho ho' => hd o o' fo fo' (h.flags o fo ho) (h.flags o' fo' ho')

theorem mem_shows_flags {i : Nat} :
    i ∈ g.shows .flags ↔ ∃ o fo, g.flags.lookup o = some fo ∧ fo.id = i := by
  simp only [shows, List.mem_toFinset, List.mem_map]
  constructor
  · rintro ⟨e, he, rfl⟩
    exact ⟨e.1, e.2, AList.mem_lookup_iff.mpr he, rfl⟩
  · rintro ⟨o, fo, ho, rfl⟩
    exact ⟨⟨o, fo⟩, AList.mem_lookup_iff.mp ho, rfl⟩

theorem shows_of_eq (hw : h.walls = g.walls) (hf : h.flags = g.flags) :
    h.shows x = g.shows x := by
  cases x <;> simp only [shows, hw, hf]

end Match

namespace Core

variable {w : World} {c d e : Core} {s : SessionId} {m : MatchRef} {x : Topic} {p : Packet}

-- What is broadcast from one state to another, match by match: every client hears what the matches
-- broadcast whose roster it is on, and who hears all of a match sees what stands in it.
def Airs (x : Topic) (c d : Core) : Prop :=
  ∃ log : List (MatchRef × List (Sign Nat)),
    (∀ p, d.signs x p = c.signs x p ++ hears (fun m => (c.ms m).players.count p) log) ∧
    ∀ m, mirror ((c.ms m).shows x) (about m log) = (d.ms m).shows x

theorem airs_of_mute (h : Mute x c d) (hs : ∀ m, (d.ms m).shows x = (c.ms m).shows x) :
    Airs x c d :=
  ⟨[], fun p => by rw [h.signs p, hears_nil, List.append_nil], fun m => by rw [about_nil, mirror_nil, hs m]⟩

theorem Airs.trans (h : Airs x c d) (h' : Airs x d e)
    (hcrew : ∀ m, (d.ms m).players = (c.ms m).players) : Airs x c e := by
  obtain ⟨log, hl, hm⟩ := h
  obtain ⟨log', hl', hm'⟩ := h'
  refine ⟨log ++ log', fun p => ?_, fun m => ?_⟩
  · rw [hl', hl, hears_append, List.append_assoc]
    congr 2
    exact hears_congr fun m => by rw [hcrew]
  · rw [about_append, mirror_append, hm, hm']

theorem Airs.mute (h : Airs x c d) (h' : Mute x d e)
    (hs : ∀ m, (e.ms m).shows x = (d.ms m).shows x) : Airs x c e := by
  obtain ⟨log, hl, hm⟩ := h
  exact ⟨log, fun p => (h'.signs p).trans (hl p), fun m => (hm m).trans (hs m).symm⟩

-- A match changes, and broadcasts packets about it.
def tell (c : Core) (m : MatchRef) (f : Match → Match) (l : List Msg) : Core :=
  l.foldl (fun c msg => c.broadcastData m msg) (c.onMatch m f)

theorem signs_tell (c : Core) (l : List Msg) (p : SessionId) :
    (l.foldl (fun c msg => c.broadcastData m msg) c).signs x p = c.signs x p ++
      hears (fun m => (c.ms m).players.count p) (l.map fun msg => (m, msg.signs x)) := by
  induction l generalizing c with
  | nil => simp
  | cons msg l ih =>
    rw [List.foldl_cons, ih, signs_broadcastData, List.append_assoc]
    rfl

theorem ms_tell (c : Core) (l : List Msg) :
    (l.foldl (fun c msg => c.broadcastData m msg) c).ms = c.ms := by
  induction l generalizing c with
  | nil => rfl
  | cons msg l ih => exact ih _

theorem ms_tell_self {f : Match → Match} {l : List Msg} : (c.tell m f l).ms m = f (c.ms m) := by
  rw [tell, ms_tell]
  exact Function.update_self ..

theorem ms_tell_of_ne {f : Match → Match} {l : List Msg} {m' : MatchRef} (h : m' ≠ m) :
    (c.tell m f l).ms m' = c.ms m' := by
  rw [tell, ms_tell]
  exact Function.update_of_ne h ..

theorem airs_tell {f : Match → Match} {l : List Msg} (hcrew : (f (c.ms m)).players = (c.ms m).players)
    (hm : mirror ((c.ms m).shows x) (l.flatMap (Msg.signs x)) = (f (c.ms m)).shows x) :
    Airs x c (c.tell m f l) := by
  refine ⟨l.map fun msg => (m, msg.signs x), fun p => ?_, fun m' => ?_⟩
  · rw [tell, signs_tell]
    refine congrArg _ (hears_congr fun m' => ?_)
    by_cases hmm : m' = m
    · rw [hmm]
      exact congrArg _ ((congrArg Match.players (Function.update_self ..)).trans hcrew)
    · exact congrArg _ (congrArg Match.players (Function.update_of_ne hmm ..))
  · have hmap : (l.map fun msg => (m, msg.signs x)) = (l.map (Msg.signs x)).map fun y => (m, y) := by
      rw [List.map_map]
      rfl
    rw [hmap]
    by_cases hmm : m' = m
    · rw [hmm, about_self, ms_tell_self, ← List.flatMap_def]
      exact hm
    · rw [about_other _ (Ne.symm hmm), ms_tell_of_ne hmm, mirror_nil]

-- Nothing new stands, the rosters stay, and the clients are told what fell.
structure Dims (x : Topic) (c d : Core) : Prop where
  crew : ∀ m, (d.ms m).players = (c.ms m).players
  fades : ∀ m, (c.ms m).Fades (d.ms m)
  airs : (∀ m, (c.ms m).Distinct x) → Airs x c d

theorem Dims.refl : Dims x c c :=
  ⟨fun _ => rfl, fun _ => .refl _, fun _ => airs_of_mute Mute.refl fun _ => rfl⟩

theorem Dims.trans (h : Dims x c d) (h' : Dims x d e) : Dims x c e where
  crew := fun m => (h'.crew m).trans (h.crew m)
  fades := fun m => (h.fades m).trans (h'.fades m)
  airs := fun hd => (h.airs hd).trans (h'.airs fun m => (h.fades m).distinct (hd m)) h.crew

theorem walls_of_keeps {F : List Part} (h : Keeps F c d) (hF : Part.walls ∉ F) (m : MatchRef) :
    ((d.ms m).walls, (d.ms m).wallSeq) = ((c.ms m).walls, (c.ms m).wallSeq) :=
  ((h _ hF).1 m).symm

theorem flags_of_keeps {F : List Part} (h : Keeps F c d) (hF : Part.flags ∉ F) (m : MatchRef) :
    ((d.ms m).flags, (d.ms m).flagSeq) = ((c.ms m).flags, (c.ms m).flagSeq) :=
  ((h _ hF).1 m).symm

theorem shows_of_keeps {F : List Part} (h : Keeps F c d) (hw : Part.walls ∉ F) (hf : Part.flags ∉ F)
    (m : MatchRef) : (d.ms m).shows x = (c.ms m).shows x :=
  Match.shows_of_eq (congrArg Prod.fst (walls_of_keeps h hw m))
    (congrArg Prod.fst (flags_of_keeps h hf m))

theorem fades_of_keeps {F : List Part} (h : Keeps F c d) (hw : Part.walls ∉ F) (hf : Part.flags ∉ F)
    (m : MatchRef) : (c.ms m).Fades (d.ms m) :=
  Match.fades_of_eq (walls_of_keeps h hw m) (flags_of_keeps h hf m)

theorem dims_of_mute {F : List Part} (h : Mute x c d) (hk : Keeps F c d)
    (hF : ∀ y ∈ F, y ∉ [.walls, .flags, .roster]) : Dims x c d where
  crew := players_of_keeps hk fun hm => hF _ hm (by decide)
  fades := fades_of_keeps hk (fun hm => hF _ hm (by decide)) fun hm => hF _ hm (by decide)
  airs := fun _ => airs_of_mute h
    (shows_of_keeps hk (fun hm => hF _ hm (by decide)) fun hm => hF _ hm (by decide))

theorem dims_tell {f : Match → Match} {l : List Msg} (hcrew : (f (c.ms m)).players = (c.ms m).players)
    (hf : (c.ms m).Fades (f (c.ms m))) (hm : (c.ms m).Distinct x →
      mirror ((c.ms m).shows x) (l.flatMap (Msg.signs x)) = (f (c.ms m)).shows x) :
    Dims x c (c.tell m f l) where
  crew := fun m' => by
    by_cases hmm : m' = m
    · rw [hmm, ms_tell_self, hcrew]
    · rw [ms_tell_of_ne hmm]
  fades := fun m' => by
    by_cases hmm : m' = m
    · rw [hmm, ms_tell_self]
      exact hf
    · rw [ms_tell_of_ne hmm]
      exact .refl _
  airs := fun hd => airs_tell hcrew (hm (hd m))

theorem Dims.onMatch (h : Dims x c d) {f : Match → Match} (hcrew : ∀ g, (f g).players = g.players)
    (hw : ∀ g, ((f g).walls, (f g).wallSeq) = (g.walls, g.wallSeq))
    (hf : ∀ g, ((f g).flags, (f g).flagSeq) = (g.flags, g.flagSeq)) : Dims x c (d.onMatch m f) :=
  h.trans <| dims_tell (l := []) (hcrew _) (Match.fades_of_eq (hw _) (hf _)) fun _ =>
    (Match.shows_of_eq (congrArg Prod.fst (hw _)) (congrArg Prod.fst (hf _))).symm

theorem Dims.foldl {β : Type} {f : Core → β → Core} (h : ∀ c b, Dims x c (f c b)) (l : List β) :
    Dims x c (l.foldl f c) := by
  induction l generalizing c with
  | nil => exact .refl
  | cons b l ih => exact (h c b).trans ih

theorem Dims.withMatch {f : MatchRef → Core} (h : ∀ m, Dims x c (f m)) :
    Dims x c (c.withMatch s f) := by
  unfold Core.withMatch
  split
  · exact h _
  · exact .refl

section Walls

variable {walls : List IceWall} {wall a b : IceWall} {i : Nat}

theorem ids_sdiff (h : (walls.map IceWall.id).Nodup) (q : IceWall → Bool) :
    (walls.map IceWall.id).toFinset \ ((walls.filter fun y => !q y).map IceWall.id).toFinset =
      ((walls.filter q).map IceWall.id).toFinset := by
  ext i
  simp only [Finset.mem_sdiff, List.mem_toFinset, List.mem_map, List.mem_filter]
  constructor
  · rintro ⟨⟨y, hy, rfl⟩, hnot⟩
    refine ⟨y, ⟨hy, ?_⟩, rfl⟩
    by_contra hq
    exact hnot ⟨y, ⟨hy, by simpa using hq⟩, rfl⟩
  · rintro ⟨y, ⟨hy, hq⟩, rfl⟩
    refine ⟨⟨y, hy, rfl⟩, ?_⟩
    rintro ⟨z, ⟨hz, hqz⟩, hid⟩
    rw [List.inj_on_of_nodup_map h hz hy hid] at hqz
    simp [hq] at hqz

theorem ids_eraseP (h : (walls.map IceWall.id).Nodup) :
    ((walls.eraseP fun y => y.id == i).map IceWall.id).toFinset =
      (walls.map IceWall.id).toFinset.erase i := by
  have herase : (walls.eraseP fun y => y.id == i).map IceWall.id = (walls.map IceWall.id).erase i := by
    rw [List.erase_eq_eraseP', List.eraseP_map]
    rfl
  ext j
  rw [herase, List.mem_toFinset, h.mem_erase_iff, Finset.mem_erase, List.mem_toFinset]

theorem tags_replaceF (h : walls.find? (fun y => y.id == i) = some a) (hb : b.tag = a.tag) :
    (walls.replaceF fun y => if y.id = a.id then some b else none).map IceWall.tag =
      walls.map IceWall.tag := by
  induction walls with
  | nil => rfl
  | cons y l ih =>
    have hid : a.id = i := by simpa using List.find?_some h
    by_cases hy : y.id = i
    · rw [List.find?_cons_of_pos (by simpa using hy), Option.some.injEq] at h
      simp [List.replaceF, hid, hb, h]
    · rw [List.find?_cons_of_neg (by simpa using hy)] at h
      have hne : y.id ≠ a.id := fun hc => hy (hc.trans hid)
      simpa [List.replaceF, hne] using ih h

theorem mem_of_replaceF {f : IceWall → Option IceWall} (h : b ∈ walls.replaceF f) :
    b ∈ walls ∨ ∃ y ∈ walls, f y = some b := by
  induction walls with
  | nil => exact absurd h List.not_mem_nil
  | cons y l ih =>
    cases hy : f y with
    | none =>
      rw [List.replaceF_cons_of_none _ hy] at h
      rcases List.mem_cons.mp h with rfl | h
      · exact Or.inl List.mem_cons_self
      · rcases ih h with hb | ⟨z, hz, hf⟩
        · exact Or.inl (List.mem_cons_of_mem _ hb)
        · exact Or.inr ⟨z, List.mem_cons_of_mem _ hz, hf⟩
    | some z =>
      rw [List.replaceF_cons_of_some _ hy] at h
      rcases List.mem_cons.mp h with rfl | h
      · exact Or.inr ⟨y, List.mem_cons_self, hy⟩
      · exact Or.inl (List.mem_cons_of_mem _ h)

theorem left_of_sublist {l l' : List IceWall} (h : l'.Sublist l) : Left l l' :=
  ⟨h.map _, fun hs y hy => hs y (h.subset hy)⟩

theorem fades_walls {l : List IceWall} {g : Match} (h : Left g.walls l) :
    g.Fades { g with walls := l } := ⟨h, rfl, fun _ _ hfo => hfo, rfl⟩

theorem dims_damageWall {dmg : Nat} (h : (c.ms m).walls.find? (fun y => y.id == i) = some wall) :
    Dims x c (c.damageWall m wall dmg) := by
  unfold damageWall
  dsimp only
  generalize (if dmg = 0 then 25 else dmg) = dmg
  split
  · refine dims_tell (f := fun g => { g with walls := g.walls.eraseP fun x => x.id == wall.id })
      (l := [.removeIcewall wall.id]) rfl (fades_walls (left_of_sublist List.eraseP_sublist))
      fun hd => ?_
    cases x with
    | walls => exact (ids_eraseP hd).symm
    | flags => rfl
  · rename_i hne
    have htags := tags_replaceF h (show (wall.crack (wall.hp - dmg)).tag = wall.tag from rfl)
    refine dims_tell (f := fun g => { g with
      walls := g.walls.replaceF fun x =>
        if x.id = wall.id then some (wall.crack (wall.hp - dmg)) else none }) (l := []) rfl
      (fades_walls ⟨?_, fun hs y hy => ?_⟩) fun hd => ?_
    · rw [htags]
    · rcases mem_of_replaceF hy with hy | ⟨z, -, hz⟩
      · exact hs y hy
      · rw [Option.ite_none_right_eq_some, Option.some.injEq] at hz
        rw [← hz.2]
        have hmax := (hs wall (List.mem_of_find?_eq_some h)).max
        exact ⟨Nat.pos_of_ne_zero hne, le_trans (Nat.sub_le _ _) hmax, rfl⟩
    · cases x with
      | walls =>
        simp only [Match.shows]
        rw [← Match.ids_of_tags, ← Match.ids_of_tags, htags]
        rfl
      | flags => rfl

theorem dims_handleIcewallDamage : Dims x c (c.handleIcewallDamage s p) := by
  unfold handleIcewallDamage
  split
  · exact .refl
  · refine Dims.withMatch fun m => ?_
    split
    · exact .refl
    · exact dims_damageWall ‹_›

theorem signs_removeIcewalls (ids : List Nat) :
    (ids.map Msg.removeIcewall).flatMap (Msg.signs .walls) = ids.map Sign.hidden := by
  induction ids with
  | nil => rfl
  | cons i l ih => rw [List.map_cons, List.flatMap_cons, ih]; rfl

theorem signs_removeIcewalls_flags (ids : List Nat) :
    (ids.map Msg.removeIcewall).flatMap (Msg.signs .flags) = [] := by
  rw [List.flatMap_eq_nil_iff]
  intro msg hmsg
  obtain ⟨i, -, rfl⟩ := List.mem_map.mp hmsg
  rfl

theorem dims_fell {q : IceWall → Bool} : Dims x c (c.tell m
    (fun g => { g with walls := g.walls.filter q })
    ((((c.ms m).walls.filter fun y => !q y).map IceWall.id).map Msg.removeIcewall)) := by
  refine dims_tell rfl (fades_walls (left_of_sublist List.filter_sublist)) fun hd => ?_
  cases x with
  | walls =>
    rw [signs_removeIcewalls, mirror_hide]
    exact ids_sdiff hd q
  | flags => rw [signs_removeIcewalls_flags]; rfl

theorem tell_of_foldl {f : Match → Match} {l : List IceWall} :
    l.foldl (fun c y => c.broadcastData m (.removeIcewall y.id)) (c.onMatch m f) =
      c.tell m f ((l.map IceWall.id).map Msg.removeIcewall) := by
  rw [tell, List.foldl_map, List.foldl_map]

theorem dims_sweepWalls : Dims x c (c.sweepWalls s) := by
  refine Dims.withMatch fun m => ?_
  dsimp only
  have hq : (fun y : IceWall => decide (glooLifetime ≤ c.now - y.placedAt)) =
      fun y => !decide (c.now - y.placedAt < glooLifetime) := by
    funext y
    rw [← decide_not]
    exact decide_eq_decide.mpr not_lt.symm
  rw [tell_of_foldl, hq]
  exact dims_fell

theorem dims_clearWalls : Dims x c (c.clearWalls s) := by
  refine Dims.withMatch fun m => ?_
  dsimp only
  have hall : Dims x c (c.tell m (fun g => { g with walls := g.walls.filter fun _ => false })
      ((((c.ms m).walls.filter fun _ => !false).map IceWall.id).map Msg.removeIcewall)) := dims_fell
  rw [tell_of_foldl]
  simpa using hall

end Walls

section Flags

variable {owner : Nat} {fo : FlagObject}

theorem fades_flags {g : Match} {flags : GoMap FlagObject}
    (h : ∀ o fo, flags.lookup o = some fo → g.flags.lookup o = some fo) :
    g.Fades { g with flags := flags } :=
  ⟨(Match.Fades.refl g).walls, rfl, h, rfl⟩

theorem lookup_of_erase {flags : GoMap FlagObject} {o : Nat}
    (h : (flags.erase owner).lookup o = some fo) : o ≠ owner ∧ flags.lookup o = some fo := by
  by_cases ho : o = owner
  · rw [ho, AList.lookup_erase] at h
    cases h
  · rw [AList.lookup_erase_ne ho] at h
    exact ⟨ho, h⟩

theorem shows_eraseFlag {g : Match} (hd : g.Distinct .flags) (h : g.flags.lookup owner = some fo) :
    ({ g with flags := g.flags.erase owner } : Match).shows .flags = (g.shows .flags).erase fo.id := by
  ext i
  rw [Finset.mem_erase, Match.mem_shows_flags, Match.mem_shows_flags]
  constructor
  · rintro ⟨o, fo', ho, rfl⟩
    obtain ⟨hne, ho⟩ := lookup_of_erase ho
    exact ⟨fun hid => hne (hd o owner fo' fo ho h hid), o, fo', ho, rfl⟩
  · rintro ⟨hne, o, fo', ho, rfl⟩
    refine ⟨o, fo', ?_, rfl⟩
    rwa [AList.lookup_erase_ne]
    rintro rfl
    exact hne (congrArg FlagObject.id (Option.some.inj (ho.symm.trans h)))

theorem dims_eraseFlag (h : (c.ms m).flags.lookup owner = some fo) :
    Dims x c ((c.onMatch m fun g => { g with flags := g.flags.erase owner }).broadcastData m
      (.battleFlagSync [gone owner fo])) := by
  refine dims_tell (f := fun g => { g with flags := g.flags.erase owner })
    (l := [.battleFlagSync [gone owner fo]]) rfl
    (fades_flags fun o fo' ho => (lookup_of_erase ho).2) fun hd => ?_
  cases x with
  | walls => rfl
  | flags => exact (shows_eraseFlag hd h).symm

theorem dims_expireFlag : Dims x c (expireFlag m c owner) := by
  unfold expireFlag
  split
  · exact .refl
  · split
    · exact dims_eraseFlag ‹_›
    · exact .refl

theorem dims_stepFlags : Dims x c (c.stepFlags m) := Dims.foldl (fun _ _ => dims_expireFlag) _

theorem dims_clearFlag : Dims x c (c.clearFlag m owner) := by
  unfold clearFlag
  split
  · exact .refl
  · exact dims_eraseFlag ‹_›

theorem signs_gone (owners : List Nat) (flags : GoMap FlagObject) :
    (owners.filterMap fun o => (flags.lookup o).map (gone o)).map BattleFlagEntry.sign =
      (owners.filterMap fun o => (flags.lookup o).map FlagObject.id).map Sign.hidden := by
  rw [List.map_filterMap, List.map_filterMap]
  congr 1
  funext o
  cases flags.lookup o <;> rfl

theorem dims_clearAllFlags : Dims x c (c.clearAllFlags m) := by
  unfold clearAllFlags
  split
  · exact .refl
  · refine dims_tell (f := fun g => { g with flags := ∅ }) (l := [.battleFlagSync _]) rfl
      (fades_flags fun o fo ho => absurd ho (by simp)) fun _ => ?_
    cases x with
    | walls => rfl
    | flags =>
      rw [List.flatMap_singleton, show ∀ es, Msg.signs .flags (.battleFlagSync es) =
        es.map BattleFlagEntry.sign from fun _ => rfl, signs_gone, mirror_hide]
      refine Finset.sdiff_eq_empty_iff_subset.mpr fun i hi => ?_
      obtain ⟨o, fo, ho, rfl⟩ := Match.mem_shows_flags.mp hi
      have hkey : o ∈ (c.ms m).flags.keys := AList.lookup_isSome.mp (by rw [ho]; rfl)
      rw [List.mem_toFinset, List.mem_filterMap]
      exact ⟨o, mem_visit.mpr hkey, by rw [ho]; rfl⟩

end Flags

theorem dims_roundReset {dead : List SessionId} : Dims x c (c.roundReset w m dead) := by
  unfold roundReset
  dsimp only
  refine Dims.onMatch (Dims.trans (Dims.trans (Dims.trans (Dims.trans (Dims.trans ?_
    (Dims.foldl (fun d p => ?_) _)) dims_clearWalls) dims_clearAllFlags)
    (dims_of_mute mute_respawnBot keeps_respawnBot (by decide)))
    (Dims.foldl (fun d p => ?_) _)) (fun _ => rfl) (fun _ => rfl) fun _ => rfl
  · exact dims_of_mute mute_reviveAll keeps_reviveAll (by decide)
  · exact dims_of_mute mute_resetPlayer keeps_resetPlayer (by decide)
  · exact dims_of_mute mute_respawnPlayer keeps_respawnPlayer (by decide)

theorem dims_enter {ph : CsPhase} {dur : Int} : Dims x c (c.enter m ph dur) :=
  dims_of_mute mute_enter keeps_enter (by decide)

theorem dims_sendPull : Dims x c (c.sendPull m) :=
  dims_of_mute mute_sendPull keeps_sendPull (by decide)

theorem dims_postBannerEdge : Dims x c (c.postBannerEdge w m) := by
  unfold postBannerEdge
  dsimp only
  split
  · refine Dims.trans (Dims.onMatch dims_roundReset ?_ ?_ ?_) dims_enter
    all_goals exact fun _ => rfl
  · refine Dims.trans (Dims.trans (dims_roundReset.trans (Dims.foldl (fun d p => ?_) _)) dims_enter)
      dims_sendPull
    exact dims_of_mute mute_reissueLoadout keeps_reissueLoadout (by decide)

theorem Dims.ite {a : Prop} [Decidable a] (hd : a → Dims x c d) (he : ¬ a → Dims x c e) :
    Dims x c (if a then d else e) := by
  split
  · exact hd ‹_›
  · exact he ‹_›

theorem dims_giveLoadout {reset : Bool} : Dims x c (c.giveLoadout w s reset) :=
  dims_of_mute mute_giveLoadout keeps_giveLoadout (by decide)

theorem dims_bindAll : Dims x c (c.bindAll m) := dims_of_mute mute_bindAll keeps_bindAll (by decide)

theorem dims_enterPrepare : Dims x c (c.enterPrepare w m) :=
  dims_of_mute mute_enterPrepare keeps_enterPrepare (by decide)

theorem dims_startBuyPhase : Dims x c (c.startBuyPhase w m) :=
  dims_of_mute mute_startBuyPhase keeps_startBuyPhase (by decide)

theorem dims_tearDown : Dims x c (c.tearDown m) :=
  dims_of_mute mute_tearDown keeps_tearDown (by decide)

theorem dims_postReviveEdge : Dims x c (c.postReviveEdge w m) := by
  have hgiven : ∀ {revived : List SessionId} {l : List SessionId} {d : Core}, Dims x d
      (l.foldl (fun c p => if p ∈ revived then c.giveLoadout w p false else c.reissueLoadout w p) d) :=
    Dims.foldl (fun _ _ => Dims.ite (fun _ => dims_giveLoadout)
      fun _ => dims_of_mute mute_reissueLoadout keeps_reissueLoadout (by decide)) _
  unfold postReviveEdge
  refine Dims.trans (Dims.trans (Dims.onMatch (dims_bindAll.trans hgiven) ?_ ?_ ?_) dims_enter)
    dims_sendPull
  all_goals exact fun _ => rfl

theorem dims_phaseEdge : Dims x c (c.phaseEdge w m) := by
  unfold phaseEdge
  cases (c.ms m).phase with
  | setupBind => exact dims_bindAll.trans dims_enter
  | setupGap => exact dims_enter
  | setupWait =>
    refine Dims.trans (Dims.trans ?_ dims_giveLoadout) dims_enterPrepare
    exact dims_of_mute mute_sendCSShop keeps_sendCSShop (by decide)
  | cancelled =>
    refine Dims.trans ?_ dims_tearDown
    exact dims_of_mute (F := []) (Mute.refl.broadcastData rfl) (Frame.refl c).broadcastData (by decide)
  | prepare =>
    refine Dims.ite (fun _ => ?_) fun _ => Dims.ite (fun _ => Dims.trans ?_ dims_startBuyPhase)
      fun _ => ?_
    · exact dims_of_mute mute_startFight keeps_startFight (by decide)
    · exact dims_of_mute mute_spawnFallbackBot keeps_spawnFallbackBot (by decide)
    · exact dims_of_mute mute_enterCancel keeps_enterCancel (by decide)
  | fight => exact .refl
  | matchEndPause =>
    refine Dims.trans (Dims.onMatch (dims_of_mute mute_matchEnd keeps_matchEnd (by decide)) ?_ ?_ ?_)
      dims_enter
    all_goals exact fun _ => rfl
  | postBanner => exact dims_postBannerEdge
  | postReviveBind => exact dims_postReviveEdge
  | postBlack =>
    refine Dims.trans ?_ dims_enter
    exact dims_of_mute (Mute.refl.onMatch.broadcastData rfl) keeps_openRound.broadcastData (by decide)
  | introWait => exact dims_enter.trans dims_sendPull
  | intro => exact dims_enterPrepare
  | matchEnd => exact dims_tearDown

theorem dims_advancePhase : Dims x c (c.advancePhase w m) :=
  Dims.ite (fun _ => Dims.ite (fun _ => dims_of_mute mute_endFight keeps_endFight (by decide))
    fun _ => .refl) fun _ => Dims.ite (fun _ => dims_startBuyPhase) fun _ =>
      Dims.ite (fun _ => dims_phaseEdge) fun _ => .refl

theorem dims_streamSweep {before : CsPhase} : Dims x c (c.streamSweep m before) := by
  refine Dims.ite (fun _ => Dims.onMatch dims_sweepWalls ?_ ?_ ?_) fun _ => .refl
  all_goals exact fun _ => rfl

theorem dims_beforeSweep : Dims x c (c.beforeSweep w m) :=
  (dims_advancePhase.trans dims_streamSweep).trans
    (dims_of_mute mute_stepZone keeps_stepZone (by decide))

theorem mute_afterSweep : Mute x (c.beforeSweep w m) (c.afterSweep w m) := mute_sweepFrom

theorem dims_tick (hp : (c.ms m).players ≠ []) : Dims x (c.afterSweep w m) (c.tick w m) := by
  have hrescue : Dims x (c.afterSweep w m) (c.afterRescue w m) :=
    (dims_of_mute mute_stepKnock keeps_stepKnock (by decide)).trans
      (dims_of_mute mute_stepRescue keeps_stepRescue (by decide))
  rw [tick_eq hp]
  exact (hrescue.trans dims_stepFlags).trans (Dims.foldl (fun _ _ =>
    dims_of_mute mute_stepPlayer keeps_stepPlayer (by decide)) _)

theorem fades_afterSweep (m' : MatchRef) : (c.ms m').Fades ((c.afterSweep w m).ms m') :=
  ((@dims_beforeSweep w c m .walls).fades m').trans
    (fades_of_keeps (F := .net :: leaveParts) keeps_sweepDisconnects (by decide) (by decide) m')

theorem fades_tick (m' : MatchRef) : (c.ms m').Fades ((c.tick w m).ms m') := by
  by_cases hp : (c.ms m).players = []
  · rw [tick, if_pos hp]
    exact fades_of_keeps keeps_stopLoop (by decide) (by decide) m'
  · exact (fades_afterSweep m').trans ((@dims_tick w c m .walls hp).fades m')

end Core

namespace Server

open MatchServer.Core

variable {w : World} {v v' : Server} {e : Event} {x : Topic} {c : Core}

-- The state in which a step hands on to a handler.
structure Begins (v : Server) (t : Moment) (c : Core) : Prop where
  keeps : Keeps [.net, .posts, .moment] v.core c
  now : c.now = t.now
  order : c.order = t.order
  silent : ∀ x p, c.signs x p = []

theorem Begins.ms {t : Moment} (hb : v.Begins t c) : c.ms = v.core.ms :=
  funext fun _ => ms_of_keeps hb.keeps (by decide) _

theorem Begins.kit {t : Moment} (hb : v.Begins t c) (s : SessionId) :
    (c.ss s).kit = (v.core.ss s).kit := ((hb.keeps .kit (by decide)).2.1 s).symm

theorem begins_atMoment {t : Moment} {loop : Option MatchRef} :
    v.Begins t (v.core.atMoment t loop) :=
  ⟨keeps_atMoment.mono (by decide), rfl, rfl, fun _ _ => rfl⟩

theorem begins_ack {t : Moment} {s : SessionId} {p : Packet} :
    v.Begins t (((v.core.atMoment t none).touch s).ackIfReliable s p) := by
  have hk : Keeps [.net] (v.core.atMoment t none)
      (((v.core.atMoment t none).touch s).ackIfReliable s p) :=
    keeps_touch.trans (keeps_ackIfReliable.mono (by decide))
  have hm := (hk .moment (by decide)).2.2
  simp only [Part.sameShared, Prod.mk.injEq] at hm
  refine ⟨(keeps_atMoment.mono (by decide)).trans (hk.mono (by decide)), hm.1.symm, hm.2.1.symm,
    fun x q => ?_⟩
  exact (Mute.trans Mute.refl.onSession mute_ackIfReliable :
    Mute x (v.core.atMoment t none) _).signs q

theorem acts (h : v.Step w e v') : ∃ c, v.Begins e.moment c ∧
    ((∃ s p, v.routed e.act = some (s, p) ∧ v'.core = c.route w s p) ∨
      (∃ m, e.act = .tick m ∧ c = v.core.atMoment e.moment (some m) ∧ v'.core = c.tick w m) ∨
      (v.routed e.act = none ∧ (∀ m, e.act ≠ .tick m) ∧ (∀ x, Mute x c v'.core) ∧
        ∃ F, Keeps F c v'.core ∧ ∀ y ∈ F, y ∉ [.walls, .flags])) := by
  have hf := fires_of_step h
  obtain ⟨act, t⟩ := e
  dsimp only at hf ⊢
  cases hf with
  | @dispatch s p _ =>
    by_cases hq : ((v.core.atMoment t none).ss s).syncStarted ∨ cmdOf p.cmd = .ack ∨
        cmdOf p.cmd = .ping
    · refine ⟨_, begins_atMoment, Or.inr (Or.inr ⟨if_pos hq, fun m hm => Action.noConfusion hm,
        fun x => mute_dispatch hq, _, dispatch_quiet hq, by decide⟩)⟩
    · have hr : v.routed (.dispatch s p) = some (s, p) := if_neg hq
      rw [not_or, not_or] at hq
      exact ⟨_, begins_ack, Or.inl ⟨s, p, hr, dispatch_routes hq.1 hq.2.1 hq.2.2⟩⟩
  | @letIn a ha =>
    have hk : Keeps (.registry :: admitParts ++ [.settings, .run, .phase, .result, .posts]) 
        (v.core.atMoment t a.loop) ((v.core.atMoment t a.loop).admission w a) :=
      Frame.trans (keeps_registry.mono (by decide)) (keeps_admitSession.mono (by decide))
    exact ⟨_, begins_atMoment, Or.inr (Or.inr ⟨rfl, fun m hm => Action.noConfusion hm,
      fun x => mute_admitSession, _, hk, by decide⟩)⟩
  | @start m _ =>
    exact ⟨_, begins_atMoment, Or.inr (Or.inr ⟨rfl, fun m hm => Action.noConfusion hm,
      fun x => mute_runStart, _, keeps_runStart, by decide⟩)⟩
  | @exec m job rest hm _ =>
    cases job with
    | route s p =>
      exact ⟨_, begins_atMoment, Or.inl ⟨s, p, by simp [routed, hm], rfl⟩⟩
    | admitLater s =>
      exact ⟨_, begins_atMoment, Or.inr (Or.inr ⟨by simp [routed, hm],
        fun m hm => Action.noConfusion hm, fun x => mute_admitLater, _, keeps_admitLater, by decide⟩)⟩
    | resyncWalls s =>
      refine ⟨_, begins_atMoment, Or.inr (Or.inr ⟨by simp [routed, hm],
        fun m hm => Action.noConfusion hm, fun x => ?_, _, keeps_resyncWalls, by decide⟩)⟩
      exact Mute.withMatch fun _ => Mute.ite (fun _ => Mute.refl) fun _ => Mute.refl.send rfl
  | @tick m _ => exact ⟨_, begins_atMoment, Or.inr (Or.inl ⟨m, rfl, rfl, rfl⟩)⟩
  | @stop m _ _ =>
    exact ⟨_, begins_atMoment, Or.inr (Or.inr ⟨rfl, fun m hm => Action.noConfusion hm,
      fun x => mute_stopLoop, _, keeps_stopLoop, by decide⟩)⟩

-- A run with what it broadcasts: of every step, the clients that `P` speaks of hear exactly what the
-- matches broadcast whose roster they are on.
inductive Aired (w : World) (x : Topic) (P : Server → Server → SessionId → Prop) :
    List Event → Server → List (MatchRef × List (Sign Nat)) → Prop where
  | start : Aired w x P [] Server.start []
  | next {es : List Event} {v v' : Server} {e : Event} {log l : List (MatchRef × List (Sign Nat))} :
    Aired w x P es v log → v.Step w e v' →
    (∀ p, P v v' p → v'.core.signs x p = hears (fun m => (v.core.ms m).players.count p) l) →
    Aired w x P (es ++ [e]) v' (log ++ l)

end Server

end MatchServer
