import Madoka.Rooms.Lease

namespace Rooms

open Lib

variable {s t : State} {e : Event}

def Listed (s : State) (a r : Nat) : Prop := ∃ room, s.rooms r = some room ∧ a ∈ room.ids

-- The writes still to come take the account out of the member list.
def Drops (todo : List Cmd) (a : Nat) : Prop :=
  (∃ rec, todo = [.setRoom rec] ∧ a ∉ rec.ids) ∨
    ∃ r dels, todo = .delRoom r :: dels ∧ .delMember a ∉ dels

def Owes (s : State) (r : Nat) (p : List Cmd → Prop) : Prop :=
  ∃ i op done todo, s.ops i = some (.body op r done todo) ∧ done ≠ [] ∧ p todo

def Adding (s : State) (a r : Nat) : Prop := Owes s r fun todo => todo = [.setMember a r]

def Unlisting (s : State) (a r : Nat) : Prop := Owes s r fun todo => Drops todo a

def Clearing (s : State) (a r : Nat) : Prop :=
  Owes s r fun todo => ∃ xs : List Nat, todo = xs.map .delMember ∧ a ∈ xs

structure Tidy (s : State) (e : Event) : Prop where
  calm : Calm s e
  whole : ∀ i op r done todo, e = .fail i → s.ops i = some (.body op r done todo) → done = []
  sets : ∀ i op r done todo a r', e = .next i →
    s.ops i = some (.body op r done (.setMember a r' :: todo)) →
    Listed s a r' ∧ ¬ Unlisting s a r' ∧ (s.members a = none ∨ s.members a = some r')
  dels : ∀ i op r done todo a, e = .next i →
    s.ops i = some (.body op r done (.delMember a :: todo)) →
    s.members a = none ∨ s.members a = some r

structure Agrees (s : State) : Prop where
  listed : ∀ a r, Listed s a r → s.members a = some r ∨ Adding s a r ∨ Unlisting s a r
  mapped : ∀ a r, s.members a = some r → Listed s a r ∨ Clearing s a r
  dropped : ∀ a r, Listed s a r → Unlisting s a r → s.members a ≠ some r

theorem agrees_start : Agrees start := by
  constructor <;> simp [start, Listed]

inductive At (s : State) (r : Nat) : List Cmd → Cmd → List Cmd → Prop where
  | edit {room rec : Room} (hr : s.rooms r = some room) (hids : rec.ids = room.ids) :
      At s r [] (.setRoom rec) []
  | create {rec : Room} {a : Nat} (hr : s.rooms r = none) (hids : rec.ids = [a]) :
      At s r [] (.setRoom rec) [.setMember a r]
  | join {room rec : Room} {a : Nat} (hr : s.rooms r = some room)
      (hids : rec.ids = room.ids ++ [a]) : At s r [] (.setRoom rec) [.setMember a r]
  | map {d : Cmd} {a : Nat} : At s r [d] (.setMember a r) []
  | kick {room rec : Room} {a : Nat} (hr : s.rooms r = some room) (hn : room.ids.Nodup)
      (hids : rec.ids = room.ids.erase a) : At s r [] (.setRoom rec) [.delMember a]
  | kicked {d : Cmd} {a : Nat} (h : ¬ Listed s a r) : At s r [d] (.delMember a) []
  | gone {a : Nat} (hr : s.rooms r = none) : At s r [] (.delMember a) []
  | leave {room rec : Room} {a : Nat} (hr : s.rooms r = some room) (hn : room.ids.Nodup)
      (hids : rec.ids = room.ids.erase a) : At s r [] (.delMember a) [.setRoom rec]
  | left {d : Cmd} {room rec : Room} {a : Nat} (hr : s.rooms r = some room) (hn : room.ids.Nodup)
      (hids : rec.ids = room.ids.erase a) : At s r [d] (.setRoom rec) []
  | dismiss {room : Room} {a : Nat} (hr : s.rooms r = some room) :
      At s r [] (.delMember a) (.delRoom r :: (room.ids.filter (· ≠ a)).map .delMember)
  | dismissed {d : Cmd} {room : Room} {a : Nat} (hr : s.rooms r = some room) :
      At s r [d] (.delRoom r) ((room.ids.filter (· ≠ a)).map .delMember)
  | clear {d d' : Cmd} {ds : List Cmd} {a : Nat} {xs : List Nat} (hr : s.rooms r = none) :
      At s r (d :: d' :: ds) (.delMember a) (xs.map .delMember)

section positions

variable {r : Nat} {op : Op} {done todo : List Cmd} {c : Cmd}

theorem split_one {x : Cmd} (h : done ++ c :: todo = [x]) : done = [] ∧ c = x ∧ todo = [] := by
  cases done with
  | nil => simpa using h
  | cons d done => simp at h

theorem split_two {x y : Cmd} (h : done ++ c :: todo = [x, y]) :
    (done = [] ∧ c = x ∧ todo = [y]) ∨ (done = [x] ∧ c = y ∧ todo = []) := by
  cases done with
  | nil => exact Or.inl (by simpa using h)
  | cons d done =>
    obtain ⟨rfl, hrest⟩ := List.cons.inj h
    obtain ⟨rfl, rfl, rfl⟩ := split_one hrest
    exact Or.inr ⟨rfl, rfl, rfl⟩

theorem split_long {x y : Cmd} {zs : List Cmd} (h : done ++ c :: todo = x :: y :: zs) :
    (done = [] ∧ c = x ∧ todo = y :: zs) ∨ (done = [x] ∧ c = y ∧ todo = zs) ∨
      ∃ ds, done = x :: y :: ds ∧ ds ++ c :: todo = zs := by
  cases done with
  | nil => exact Or.inl (by simpa using h)
  | cons d done =>
    obtain ⟨rfl, hrest⟩ := List.cons.inj h
    cases done with
    | nil => exact Or.inr (Or.inl ⟨rfl, by simpa using hrest⟩)
    | cons d' done =>
      obtain ⟨rfl, hlast⟩ := List.cons.inj hrest
      exact Or.inr (Or.inr ⟨done, rfl, hlast⟩)

theorem split_dels {ds : List Cmd} {xs : List Nat} (h : ds ++ c :: todo = xs.map Cmd.delMember) :
    ∃ (a : Nat) (ys : List Nat), c = .delMember a ∧ todo = ys.map .delMember ∧
      ∀ d ∈ ds, d.roomId = none := by
  induction ds generalizing xs with
  | nil =>
    cases xs with
    | nil => cases h
    | cons x xs =>
      obtain ⟨rfl, rfl⟩ := List.cons.inj h
      exact ⟨x, xs, rfl, rfl, by simp⟩
  | cons d ds ih =>
    cases xs with
    | nil => cases h
    | cons x xs =>
      obtain ⟨rfl, hrest⟩ := List.cons.inj h
      obtain ⟨a, ys, hc, ht, hds⟩ := ih hrest
      exact ⟨a, ys, hc, ht, by simpa [Cmd.roomId] using hds⟩

theorem body_at (h : Body s r op done (c :: todo)) : At s r done c todo := by
  cases h with
  | @create account req now _ _ h hr hfresh =>
    rcases split_two h with ⟨rfl, rfl, rfl⟩ | ⟨rfl, rfl, rfl⟩
    · exact .create (hfresh rfl) (ids_newRoom account req r now)
    · exact .map
  | gone h => exact .gone h
  | @plan _ _ _ room hc hs hid hv hp hr =>
    generalize hcmds : done ++ c :: todo = cmds at hp
    cases hp with
    | keep => simp at hcmds
    | edit hop hid' hids howner =>
      obtain ⟨rfl, rfl, rfl⟩ := split_one hcmds
      exact .edit hr hids
    | join h =>
      rcases split_two hcmds with ⟨rfl, rfl, rfl⟩ | ⟨rfl, rfl, rfl⟩
      · rw [hid]
        exact .join hr (ids_joined _ _)
      · rw [hid]
        exact .map
    | kick hne h =>
      rcases split_two hcmds with ⟨rfl, rfl, rfl⟩ | ⟨rfl, rfl, rfl⟩
      · exact .kick hr hv.nodup (ids_without _ _)
      · refine .kicked ?_
        rintro ⟨room', hroom', hm⟩
        have : some (without room _) = some room' := hr.symm.trans hroom'
        obtain rfl := Option.some.inj this
        rw [ids_without] at hm
        exact hv.nodup.not_mem_erase hm
    | dismiss h =>
      rcases split_long hcmds with ⟨rfl, rfl, rfl⟩ | ⟨rfl, rfl, rfl⟩ | ⟨ds, rfl, hds⟩
      · rw [hid]
        exact .dismiss hr
      · rw [hid]
        exact .dismissed hr
      · obtain ⟨a, ys, rfl, rfl, hds'⟩ := split_dels hds
        exact .clear (hr.trans (foldl_onRoom hds'))
    | leave hne h =>
      rcases split_two hcmds with ⟨rfl, rfl, rfl⟩ | ⟨rfl, rfl, rfl⟩
      · exact .leave hr hv.nodup (ids_without _ _)
      · exact .left hr hv.nodup (ids_without _ _)

theorem at_setMember {a r' : Nat} (h : At s r done (.setMember a r') todo) :
    r' = r ∧ todo = [] := by
  cases h
  exact ⟨rfl, rfl⟩

theorem drops_setRoom {rec : Room} {a : Nat} : Drops [.setRoom rec] a ↔ a ∉ rec.ids := by
  constructor
  · rintro (⟨rec', h, hm⟩ | ⟨r, dels, h, _⟩)
    · cases h
      exact hm
    · cases h
  · exact fun h => Or.inl ⟨rec, rfl, h⟩

theorem drops_delRoom {r' : Nat} {dels : List Cmd} {a : Nat} :
    Drops (.delRoom r' :: dels) a ↔ .delMember a ∉ dels := by
  constructor
  · rintro (⟨rec, h, _⟩ | ⟨r, dels', h, hm⟩)
    · cases h
    · cases h
      exact hm
  · exact fun h => Or.inr ⟨r', dels, rfl, h⟩

theorem not_drops_nil {m : Nat} : ¬ Drops [] m := by
  rintro (⟨rec, h, _⟩ | ⟨r, dels, h, _⟩) <;> cases h

theorem not_drops_setMember {a m r' : Nat} {rest : List Cmd} :
    ¬ Drops (.setMember a r' :: rest) m := by
  rintro (⟨rec, h, _⟩ | ⟨r, dels, h, _⟩) <;> cases h

theorem not_drops_delMember {a m : Nat} {rest : List Cmd} : ¬ Drops (.delMember a :: rest) m := by
  rintro (⟨rec, h, _⟩ | ⟨r, dels, h, _⟩) <;> cases h

theorem not_drops_map {xs : List Nat} {m : Nat} : ¬ Drops (xs.map .delMember) m := by
  cases xs with
  | nil => exact not_drops_nil
  | cons x xs => exact not_drops_delMember

theorem mem_others {room : Room} {a m : Nat} (hm : m ∈ room.ids) (hne : m ≠ a) :
    Cmd.delMember m ∈ (room.ids.filter (· ≠ a)).map Cmd.delMember :=
  List.mem_map_of_mem (List.mem_filter.mpr ⟨hm, by simpa using hne⟩)

theorem not_mem_others {room : Room} {a : Nat} :
    Cmd.delMember a ∉ (room.ids.filter (· ≠ a)).map Cmd.delMember := by
  simp

theorem listed_iff {room : Room} {m : Nat} (h : s.rooms r = some room) :
    Listed s m r ↔ m ∈ room.ids := by
  constructor
  · rintro ⟨room', hr, hm⟩
    obtain rfl := Option.some.inj (h.symm.trans hr)
    exact hm
  · exact fun hm => ⟨room, h, hm⟩

theorem not_listed {m : Nat} (h : s.rooms r = none) : ¬ Listed s m r := by
  rintro ⟨room, hr, _⟩
  rw [h] at hr
  cases hr

theorem at_delMember {a : Nat} (h : At s r done (.delMember a) todo) :
    (Listed s a r → todo ≠ [] ∧ Drops todo a) ∧ ∀ m, m ≠ a → Listed s m r → ¬ Drops todo m := by
  cases h with
  | kicked h => exact ⟨fun hl => absurd hl h, fun m _ _ => not_drops_nil⟩
  | gone hr => exact ⟨fun hl => absurd hl (not_listed hr), fun m _ _ => not_drops_nil⟩
  | leave hr hn hids =>
    refine ⟨fun _ => ⟨by simp, ?_⟩, fun m hne hl => ?_⟩
    · rw [drops_setRoom, hids]
      exact hn.not_mem_erase
    · rw [drops_setRoom, hids, not_not]
      exact (List.mem_erase_of_ne hne).mpr ((listed_iff hr).mp hl)
  | dismiss hr =>
    refine ⟨fun _ => ⟨by simp, drops_delRoom.mpr not_mem_others⟩, fun m hne hl => ?_⟩
    rw [drops_delRoom, not_not]
    exact mem_others ((listed_iff hr).mp hl) hne
  | clear hr => exact ⟨fun hl => absurd hl (not_listed hr), fun m _ _ => not_drops_map⟩

theorem at_setRoom {rec : Room} (h : At s r done (.setRoom rec) todo) :
    (∀ m ∈ rec.ids, Listed s m r ∨ todo = [.setMember m r]) ∧
    (∀ m, Listed s m r → m ∈ rec.ids ∨ todo = [.delMember m] ∨
      (done ≠ [] ∧ Drops (.setRoom rec :: todo) m)) ∧ ∀ m, ¬ Drops todo m := by
  cases h with
  | edit hr hids =>
    refine ⟨fun m hm => Or.inl ?_, fun m hm => Or.inl ?_, fun m => not_drops_nil⟩
    · exact (listed_iff hr).mpr (hids ▸ hm)
    · exact hids ▸ (listed_iff hr).mp hm
  | create hr hids =>
    refine ⟨fun m hm => Or.inr ?_, fun m hm => absurd hm (not_listed hr),
      fun m => not_drops_setMember⟩
    rw [hids] at hm
    rw [List.mem_singleton.mp hm]
  | join hr hids =>
    refine ⟨fun m hm => ?_, fun m hm => Or.inl ?_, fun m => not_drops_setMember⟩
    · rw [hids] at hm
      rcases List.mem_append.mp hm with hm | hm
      · exact Or.inl ((listed_iff hr).mpr hm)
      · rw [List.mem_singleton.mp hm]
        exact Or.inr rfl
    · rw [hids]
      exact List.mem_append_left _ ((listed_iff hr).mp hm)
  | @kick room _ a hr hn hids =>
    refine ⟨fun m hm => Or.inl ?_, fun m hm => ?_, fun m => not_drops_delMember⟩
    · rw [hids] at hm
      exact (listed_iff hr).mpr (List.mem_of_mem_erase hm)
    · by_cases hma : m = a
      · exact Or.inr (Or.inl (by rw [hma]))
      · rw [hids]
        exact Or.inl ((List.mem_erase_of_ne hma).mpr ((listed_iff hr).mp hm))
  | @left d room _ a hr hn hids =>
    refine ⟨fun m hm => Or.inl ?_, fun m hm => ?_, fun m => not_drops_nil⟩
    · rw [hids] at hm
      exact (listed_iff hr).mpr (List.mem_of_mem_erase hm)
    · by_cases hmem : m ∈ rec.ids
      · exact Or.inl hmem
      · exact Or.inr (Or.inr ⟨by simp, drops_setRoom.mpr hmem⟩)

theorem at_delRoom {r' : Nat} (h : At s r done (.delRoom r') todo) :
    done ≠ [] ∧ (∃ xs : List Nat, todo = xs.map .delMember) ∧
      ∀ m, Drops (.delRoom r' :: todo) m ∨ .delMember m ∈ todo := by
  cases h with
  | dismissed hr =>
    refine ⟨by simp, ⟨_, rfl⟩, fun m => ?_⟩
    rw [drops_delRoom]
    exact (em _).symm

end positions

section write

variable {i r : Nat} {op : Op} {done todo : List Cmd} {c : Cmd}

theorem owes_kept {r' : Nat} {p : List Cmd → Prop}
    (hj : s.ops i = some (.body op r done (c :: todo))) (h : Owes s r' p) :
    Owes (s.wrote i op r done c todo) r' p ∨ (r' = r ∧ done ≠ [] ∧ p (c :: todo)) := by
  obtain ⟨k, op', done', todo', hk, hd, hp⟩ := h
  by_cases hne : k = i
  · subst hne
    rw [hj] at hk
    cases hk
    exact Or.inr ⟨rfl, hd, hp⟩
  · refine Or.inl ⟨k, op', done', todo', ?_, hd, hp⟩
    rw [ops_wrote, Function.update_of_ne hne]
    exact hk

theorem owes_new {p : List Cmd → Prop} (ht : todo ≠ []) (hp : p todo) :
    Owes (s.wrote i op r done c todo) r p := by
  refine ⟨i, op, done ++ [c], todo, ?_, by simp, hp⟩
  rw [ops_wrote, Function.update_self]
  cases todo with
  | nil => exact absurd rfl ht
  | cons c' todo => rfl

theorem owes_wrote {r' : Nat} {p : List Cmd → Prop} (h : Owes (s.wrote i op r done c todo) r' p) :
    (∃ k op' done' todo', k ≠ i ∧ s.ops k = some (.body op' r' done' todo') ∧ done' ≠ [] ∧
      p todo') ∨ (r' = r ∧ p todo) := by
  obtain ⟨k, op', done', todo', hk, hd, hp⟩ := h
  rcases body_wrote hk with ⟨rfl, rfl, rfl, rfl, rfl⟩ | ⟨hne, hk⟩
  · exact Or.inr ⟨rfl, hp⟩
  · exact Or.inl ⟨k, op', done', todo', hne, hk, hd, hp⟩

theorem members_wrote (m : Nat) : (s.wrote i op r done c todo).members m =
    match c with
    | .setMember a r' => if m = a then some r' else s.members m
    | .delMember a => if m = a then none else s.members m
    | _ => s.members m := by
  cases c <;> simp [State.wrote, State.goto, State.write, Function.update_apply]

theorem listed_wrote_other {m r' : Nat} (hi : Inv s)
    (hj : s.ops i = some (.body op r done (c :: todo))) (hne : r' ≠ r) :
    Listed (s.wrote i op r done c todo) m r' ↔ Listed s m r' := by
  simp only [Listed, rooms_wrote_other hi hj hne]

theorem listed_wrote_same {m r' : Nat} (h : c.roomId = none) :
    Listed (s.wrote i op r done c todo) m r' ↔ Listed s m r' := by
  have : (s.wrote i op r done c todo).rooms r' = s.rooms r' := by
    rw [rooms_wrote, h]
    simp
  simp only [Listed, this]

theorem members_other {m r' : Nat} (hi : Inv s) (ht : Tidy s (.next i))
    (hj : s.ops i = some (.body op r done (c :: todo))) (hne : r' ≠ r) :
    (s.wrote i op r done c todo).members m = some r' ↔ s.members m = some r' := by
  rw [members_wrote]
  cases c with
  | setMember a r'' =>
    obtain ⟨rfl, _⟩ := at_setMember (body_at (hi.body i op r done _ hj))
    obtain ⟨_, _, hm⟩ := ht.sets i op r'' done todo a r'' rfl hj
    by_cases hma : m = a
    · subst hma
      rcases hm with hm | hm <;> simp [hm, hne.symm]
    · simp [hma]
  | delMember a =>
    have hm := ht.dels i op r done todo a rfl hj
    by_cases hma : m = a
    · subst hma
      rcases hm with hm | hm <;> simp [hm, hne.symm]
    · simp [hma]
  | _ => exact Iff.rfl

theorem agrees_other {r' : Nat} (hi : Inv s) (ha : Agrees s) (ht : Tidy s (.next i))
    (hj : s.ops i = some (.body op r done (c :: todo))) (hne : r' ≠ r) (m : Nat) :
    let t := s.wrote i op r done c todo
    (Listed t m r' → t.members m = some r' ∨ Adding t m r' ∨ Unlisting t m r') ∧
    (t.members m = some r' → Listed t m r' ∨ Clearing t m r') ∧
    (Listed t m r' → Unlisting t m r' → t.members m ≠ some r') := by
  have hkeep : ∀ {p : List Cmd → Prop}, Owes s r' p → Owes (s.wrote i op r done c todo) r' p :=
    fun h => (owes_kept hj h).resolve_right fun h => hne h.1
  refine ⟨fun hl => ?_, fun hm => ?_, fun hl hu hm => ?_⟩
  · rw [listed_wrote_other hi hj hne] at hl
    rw [members_other hi ht hj hne]
    exact (ha.listed m r' hl).imp_right (Or.imp hkeep hkeep)
  · rw [members_other hi ht hj hne] at hm
    rw [listed_wrote_other hi hj hne]
    exact (ha.mapped m r' hm).imp_right hkeep
  · rw [listed_wrote_other hi hj hne] at hl
    rw [members_other hi ht hj hne] at hm
    rcases owes_wrote hu with ⟨k, op', done', todo', _, hk, hd, hp⟩ | ⟨h, _⟩
    · exact ha.dropped m r' hl ⟨k, op', done', todo', hk, hd, hp⟩ hm
    · exact hne h

def AgreesAt (s : State) (m r : Nat) : Prop :=
  (Listed s m r → s.members m = some r ∨ Adding s m r ∨ Unlisting s m r) ∧
  (s.members m = some r → Listed s m r ∨ Clearing s m r) ∧
  (Listed s m r → Unlisting s m r → s.members m ≠ some r)

theorem agrees_setMember {a r' : Nat} (hi : Inv s) (ha : Agrees s) (ht : Tidy s (.next i))
    (hj : s.ops i = some (.body op r done (.setMember a r' :: todo))) (m : Nat) :
    AgreesAt (s.wrote i op r done (.setMember a r') todo) m r := by
  obtain ⟨rfl, rfl⟩ := at_setMember (body_at (hi.body i op r done _ hj))
  obtain ⟨hlisted, hnot, _⟩ := ht.sets i op r' done [] a r' rfl hj
  have hsame : ∀ m, Listed (s.wrote i op r' done (.setMember a r') []) m r' ↔ Listed s m r' :=
    fun m => listed_wrote_same rfl
  have hback : Unlisting (s.wrote i op r' done (.setMember a r') []) m r' → Unlisting s m r' := by
    intro hu
    rcases owes_wrote hu with ⟨k, op', done', todo', _, hk, hd, hp⟩ | ⟨_, hp⟩
    · exact ⟨k, op', done', todo', hk, hd, hp⟩
    · exact absurd hp not_drops_nil
  by_cases hma : m = a
  · subst hma
    refine ⟨fun _ => Or.inl ?_, fun _ => Or.inl ((hsame m).mpr hlisted), fun _ hu => ?_⟩
    · rw [members_wrote]
      simp
    · exact absurd (hback hu) hnot
  · have hmem : (s.wrote i op r' done (.setMember a r') []).members m = s.members m := by
      rw [members_wrote]
      simp [hma]
    refine ⟨fun hl => ?_, fun hm => ?_, fun hl hu => ?_⟩
    · rw [hmem]
      refine (ha.listed m r' ((hsame m).mp hl)).imp_right (Or.imp (fun h => ?_) (fun h => ?_))
      · refine (owes_kept hj h).resolve_right fun h => hma ?_
        simpa [eq_comm] using h.2.2
      · exact (owes_kept hj h).resolve_right fun h => not_drops_setMember h.2.2
    · rw [hmem] at hm
      refine (ha.mapped m r' hm).imp (hsame m).mpr fun h => ?_
      refine (owes_kept hj h).resolve_right fun h => ?_
      obtain ⟨xs, hxs, _⟩ := h.2.2
      cases xs <;> cases hxs
    · rw [hmem]
      exact ha.dropped m r' ((hsame m).mp hl) (hback hu)

theorem agrees_delMember {a : Nat} (hi : Inv s) (ha : Agrees s)
    (hj : s.ops i = some (.body op r done (.delMember a :: todo))) (m : Nat) :
    AgreesAt (s.wrote i op r done (.delMember a) todo) m r := by
  obtain ⟨hself, hothers⟩ := at_delMember (body_at (hi.body i op r done _ hj))
  have hsame : Listed (s.wrote i op r done (.delMember a) todo) m r ↔ Listed s m r :=
    listed_wrote_same rfl
  by_cases hma : m = a
  · subst hma
    have hnone : (s.wrote i op r done (.delMember m) todo).members m = none := by
      rw [members_wrote]
      simp
    refine ⟨fun hl => ?_, fun hm => ?_, fun _ _ => ?_⟩
    · obtain ⟨hne, hdrop⟩ := hself (hsame.mp hl)
      exact Or.inr (Or.inr (owes_new hne hdrop))
    · rw [hnone] at hm
      cases hm
    · rw [hnone]
      exact Option.some_ne_none r |>.symm
  · have hmem : (s.wrote i op r done (.delMember a) todo).members m = s.members m := by
      rw [members_wrote]
      simp [hma]
    refine ⟨fun hl => ?_, fun hm => ?_, fun hl hu => ?_⟩
    · rw [hmem]
      refine (ha.listed m r (hsame.mp hl)).imp_right (Or.imp (fun h => ?_) (fun h => ?_))
      · exact (owes_kept hj h).resolve_right fun h => by simpa using h.2.2
      · exact (owes_kept hj h).resolve_right fun h => not_drops_delMember h.2.2
    · rw [hmem] at hm
      refine (ha.mapped m r hm).imp hsame.mpr fun h => ?_
      rcases owes_kept hj h with h | ⟨_, _, xs, hxs, hin⟩
      · exact h
      · cases xs with
        | nil => cases hin
        | cons x xs =>
          obtain ⟨hx, rfl⟩ := List.cons.inj hxs
          cases hx
          have hin : m ∈ xs := (List.mem_cons.mp hin).resolve_left hma
          refine owes_new ?_ ⟨xs, rfl, hin⟩
          rintro hnil
          rw [List.map_eq_nil_iff.mp hnil] at hin
          cases hin
    · rw [hmem]
      rcases owes_wrote hu with ⟨k, op', done', todo', _, hk, hd, hp⟩ | ⟨_, hp⟩
      · exact ha.dropped m r (hsame.mp hl) ⟨k, op', done', todo', hk, hd, hp⟩
      · exact absurd hp (hothers m hma (hsame.mp hl))

theorem create_todo (h : Body s r op done todo) (hc : op.isCreate = true) (hd : done ≠ []) :
    todo = [] ∨ ∃ a, todo = [.setMember a r] := by
  cases todo with
  | nil => exact Or.inl rfl
  | cons c todo =>
    cases h with
    | @create account req now _ _ h _ _ =>
      rcases split_two h with ⟨rfl, _⟩ | ⟨_, rfl, rfl⟩
      · exact absurd rfl hd
      · exact Or.inr ⟨account.uid, rfl⟩
    | gone => cases hc
    | plan hc' => simp [hc] at hc'

theorem listed_wrote_self (hi : Inv s) (hj : s.ops i = some (.body op r done (c :: todo)))
    (m : Nat) : Listed (s.wrote i op r done c todo) m r ↔
      ∃ room, c.onRoom (s.rooms r) = some room ∧ m ∈ room.ids := by
  rw [Listed, rooms_wrote_self hi hj]

theorem agrees_setRoom {rec : Room} (hi : Inv s) (ha : Agrees s)
    (hj : s.ops i = some (.body op r done (.setRoom rec :: todo))) (m : Nat) :
    AgreesAt (s.wrote i op r done (.setRoom rec) todo) m r := by
  obtain ⟨hnew, hold, hdrops⟩ := at_setRoom (body_at (hi.body i op r done _ hj))
  have hlisted : Listed (s.wrote i op r done (.setRoom rec) todo) m r ↔ m ∈ rec.ids := by
    rw [listed_wrote_self hi hj]
    simp [Cmd.onRoom]
  refine ⟨fun hl => ?_, fun hm => ?_, fun _ hu => ?_⟩
  · have hmem := hlisted.mp hl
    rcases hnew m hmem with hl | htodo
    · refine (ha.listed m r hl).imp_right (Or.imp (fun h => ?_) (fun h => ?_))
      · exact (owes_kept hj h).resolve_right fun h => by simpa using h.2.2
      · refine (owes_kept hj h).resolve_right fun h => ?_
        rcases h.2.2 with ⟨rec', he, hno⟩ | ⟨_, _, he, _⟩
        · cases he
          exact hno hmem
        · cases he
    · exact Or.inr (Or.inl (owes_new (by simp [htodo]) htodo))
  · rcases ha.mapped m r hm with hl | hclear
    · rcases hold m hl with hmem | htodo | ⟨hd, hdrop⟩
      · exact Or.inl (hlisted.mpr hmem)
      · exact Or.inr (owes_new (by simp [htodo]) ⟨[m], htodo, List.mem_singleton_self m⟩)
      · exact absurd hm (ha.dropped m r hl ⟨i, op, done, _, hj, hd, hdrop⟩)
    · refine Or.inr ((owes_kept hj hclear).resolve_right fun h => ?_)
      obtain ⟨xs, hxs, _⟩ := h.2.2
      cases xs <;> cases hxs
  · rcases owes_wrote hu with ⟨k, op', done', todo', hne, hk, hd, hp⟩ | ⟨_, hp⟩
    · obtain ⟨hc, _⟩ := alone hi hj (by simp [Cmd.roomId]) hne hk
      rcases create_todo (hi.body k op' r done' todo' hk) hc hd with rfl | ⟨a, rfl⟩
      · exact absurd hp not_drops_nil
      · exact absurd hp not_drops_setMember
    · exact absurd hp (hdrops m)

theorem agrees_delRoom {r' : Nat} (hi : Inv s) (ha : Agrees s)
    (hj : s.ops i = some (.body op r done (.delRoom r' :: todo))) (m : Nat) :
    AgreesAt (s.wrote i op r done (.delRoom r') todo) m r := by
  obtain ⟨hd, ⟨xs, hxs⟩, hall⟩ := at_delRoom (body_at (hi.body i op r done _ hj))
  have hnot : ¬ Listed (s.wrote i op r done (.delRoom r') todo) m r := by
    rw [listed_wrote_self hi hj]
    simp [Cmd.onRoom]
  refine ⟨fun hl => absurd hl hnot, fun hm => Or.inr ?_, fun hl => absurd hl hnot⟩
  rcases ha.mapped m r hm with hl | hclear
  · rcases hall m with hdrop | hmem
    · exact absurd hm (ha.dropped m r hl ⟨i, op, done, _, hj, hd, hdrop⟩)
    · refine owes_new (List.ne_nil_of_mem hmem) ⟨xs, hxs, ?_⟩
      rw [hxs] at hmem
      obtain ⟨x, hx, he⟩ := List.mem_map.mp hmem
      cases he
      exact hx
  · refine (owes_kept hj hclear).resolve_right fun h => ?_
    obtain ⟨ys, hys, _⟩ := h.2.2
    cases ys <;> cases hys

theorem agrees_write (hi : Inv s) (ha : Agrees s) (ht : Tidy s (.next i))
    (hj : s.ops i = some (.body op r done (c :: todo))) :
    Agrees (s.wrote i op r done c todo) := by
  have hall : ∀ m r', AgreesAt (s.wrote i op r done c todo) m r' := by
    intro m r'
    by_cases hne : r' = r
    · subst hne
      cases c with
      | setRoom rec => exact agrees_setRoom hi ha hj m
      | delRoom => exact agrees_delRoom hi ha hj m
      | setMember => exact agrees_setMember hi ha ht hj m
      | delMember => exact agrees_delMember hi ha hj m
    · exact agrees_other hi ha ht hj hne m
  exact ⟨fun m r' => (hall m r').1, fun m r' => (hall m r').2.1, fun m r' => (hall m r').2.2⟩

end write

theorem agrees_moves {i : Nat} {pc : Pc} (ha : Agrees s) (h : Moves s t i pc)
    (hnew : ∀ op r done todo, pc = .body op r done todo → done = [])
    (hold : ∀ op r done todo, s.ops i = some (.body op r done todo) → done = []) : Agrees t := by
  have howes : ∀ {r p}, Owes t r p ↔ Owes s r p := by
    intro r p
    constructor
    · rintro ⟨k, op, done, todo, hk, hd, hp⟩
      rcases ops_update h.ops hk with ⟨_, hpc⟩ | ⟨_, hk⟩
      · exact absurd (hnew _ _ _ _ hpc.symm) hd
      · exact ⟨k, op, done, todo, hk, hd, hp⟩
    · rintro ⟨k, op, done, todo, hk, hd, hp⟩
      have hne : k ≠ i := by
        rintro rfl
        exact hd (hold _ _ _ _ hk)
      refine ⟨k, op, done, todo, ?_, hd, hp⟩
      rw [h.ops, Function.update_of_ne hne]
      exact hk
  have hlisted : ∀ a r, Listed t a r ↔ Listed s a r := by
    intro a r
    simp only [Listed, h.rooms]
  refine ⟨fun a r hl => ?_, fun a r hm => ?_, fun a r hl hu => ?_⟩
  · rw [h.members]
    exact (ha.listed a r ((hlisted a r).mp hl)).imp_right (Or.imp howes.mpr howes.mpr)
  · rw [h.members] at hm
    exact (ha.mapped a r hm).imp (hlisted a r).mpr howes.mpr
  · rw [h.members]
    exact ha.dropped a r ((hlisted a r).mp hl) (howes.mp hu)

theorem agrees_step (hi : Inv s) (ha : Agrees s) (hs : Step s e t) (ht : Tidy s e) : Agrees t := by
  cases moved_step hs with
  | move h hnew hold hinv =>
    refine agrees_moves ha h (fun op r done todo hb => (hnew op r done todo hb).1) ?_
    exact fun op r done todo hj => ht.whole _ op r done todo (hold op r done todo hj) hj
  | write hj => exact agrees_write hi ha ht hj
  | expire r => exact ⟨ha.listed, ha.mapped, ha.dropped⟩

theorem run_agrees {es : List Event} (h : Run (Guarded Step Tidy) start es s) :
    Inv s ∧ Agrees s :=
  run_invariant (I := fun s => Inv s ∧ Agrees s) h ⟨inv_start, agrees_start⟩
    fun ⟨hi, ha⟩ ⟨hs, ht⟩ => ⟨inv_step hi hs ht.calm, agrees_step hi ha hs ht⟩

def Pc.inFlight : Pc → Bool
  | .release _ _ _ => false
  | .finished _ _ => false
  | _ => true

def Quiet (s : State) : Prop := ∀ i pc, s.ops i = some pc → pc.inFlight = false

structure Bijection (s : State) : Prop where
  mapped : ∀ a r, s.members a = some r ↔ Listed s a r
  single : ∀ a r r', Listed s a r → Listed s a r' → r = r'
  once : ∀ r room, s.rooms r = some room → room.ids.Nodup

theorem bijection_of_agrees (hi : Inv s) (ha : Agrees s) (hq : Quiet s) : Bijection s := by
  have hnone : ∀ {r p}, ¬ Owes s r p := by
    rintro r p ⟨i, op, done, todo, hj, _, _⟩
    exact absurd (hq i _ hj) (by simp [Pc.inFlight])
  have hiff : ∀ a r, s.members a = some r ↔ Listed s a r := by
    refine fun a r => ⟨fun h => (ha.mapped a r h).resolve_right hnone, fun h => ?_⟩
    exact (ha.listed a r h).resolve_right (not_or.mpr ⟨hnone, hnone⟩)
  refine ⟨hiff, fun a r r' h h' => ?_, fun r room hr => (hi.valid r room hr).2.1.nodup⟩
  exact Option.some.inj (((hiff a r).mpr h).symm.trans ((hiff a r').mpr h'))

theorem room_membership_bijection {es : List Event} (h : Run (Guarded Step Tidy) start es s)
    (hq : Quiet s) : Bijection s :=
  bijection_of_agrees (run_agrees h).1 (run_agrees h).2 hq

def guest (uid : Nat) : Account := ⟨uid, 0, "", 0, 0, 0, 0⟩

def plain : CreateReq :=
  ⟨none, none, none, none, none, none, none, none, none, none, none, none, none, none⟩

theorem tidy_call (i : Nat) (op : Op) : Tidy s (.call i op) where
  calm := trivial
  whole := by rintro _ _ _ _ _ ⟨⟩
  sets := by rintro _ _ _ _ _ _ _ ⟨⟩
  dels := by rintro _ _ _ _ _ _ ⟨⟩

theorem tidy_next {i : Nat} {pc : Pc} (hi : s.ops i = some pc) (hl : ∀ op r, pc ≠ .lock op r)
    (hm : ∀ op r done todo c, pc = .body op r done (c :: todo) → c.roomId ≠ none) : Tidy s (.next i) where
  calm := fun op r hj => absurd (Option.some.inj (hi.symm.trans hj)) (hl op r)
  whole := by rintro _ _ _ _ _ ⟨⟩
  sets := by
    rintro j op r done todo a r' ⟨⟩ hj
    exact absurd rfl (hm op r done todo _ (Option.some.inj (hi.symm.trans hj)))
  dels := by
    rintro j op r done todo a ⟨⟩ hj
    exact absurd rfl (hm op r done todo _ (Option.some.inj (hi.symm.trans hj)))

theorem tidy_lock {i r : Nat} {op : Op} (hi : s.ops i = some (.lock op r))
    (hfree : ∀ j pc, s.ops j = some pc → pc.locked ≠ some r) : Tidy s (.next i) where
  calm := by
    intro op' r' hj
    cases hi.symm.trans hj
    exact hfree
  whole := by rintro _ _ _ _ _ ⟨⟩
  sets := by
    rintro j op' r' done todo a r'' ⟨⟩ hj
    cases hi.symm.trans hj
  dels := by
    rintro j op' r' done todo a ⟨⟩ hj
    cases hi.symm.trans hj

theorem tidy_set {i a r : Nat} {op : Op} {done : List Cmd}
    (hi : s.ops i = some (.body op r done [.setMember a r])) (hl : Listed s a r)
    (hu : ∀ j op' done' todo', s.ops j = some (.body op' r done' todo') → j = i)
    (hm : s.members a = none) : Tidy s (.next i) where
  calm := by
    intro op' r' hj
    cases hi.symm.trans hj
  whole := by rintro _ _ _ _ _ ⟨⟩
  sets := by
    rintro j op' r' done' todo a' r'' ⟨⟩ hj
    cases hi.symm.trans hj
    refine ⟨hl, ?_, Or.inl hm⟩
    rintro ⟨j, op', done', todo', hj', -, hd⟩
    obtain rfl := hu j op' done' todo' hj'
    cases hi.symm.trans hj'
    exact not_drops_setMember hd
  dels := by
    rintro j op' r' done' todo a' ⟨⟩ hj
    cases hi.symm.trans hj

theorem tidy_del {i a r : Nat} {op : Op} {done todo : List Cmd}
    (hi : s.ops i = some (.body op r done (.delMember a :: todo))) (hm : s.members a = some r) :
    Tidy s (.next i) where
  calm := by
    intro op' r' hj
    cases hi.symm.trans hj
  whole := by rintro _ _ _ _ _ ⟨⟩
  sets := by
    rintro j op' r' done' todo' a' r'' ⟨⟩ hj
    cases hi.symm.trans hj
  dels := by
    rintro j op' r' done' todo' a' ⟨⟩ hj
    cases hi.symm.trans hj
    exact Or.inr hm

theorem left_run : ∃ es s, Run (Guarded Step Tidy) start es s ∧ Quiet s ∧
    s.members 1 = some 1 ∧ s.members 2 = none ∧ (s.rooms 1).map Room.ids = some [1] := by
  have h0 : Run (Guarded Step Tidy) start [] start := .start
  have h1 := h0.next (show Guarded _ _ _ (.call 0 (.create (guest 1) plain 0)) _ from ⟨rfl, tidy_call _ _⟩)
  have h2 := h1.next (show Guarded _ _ _ (.next 0) _ from ⟨rfl, tidy_next rfl (by rintro _ _ ⟨⟩) (by rintro _ _ _ _ _ ⟨⟩)⟩)
  have h3 := h2.next (show Guarded _ _ _ (.next 0) _ from ⟨rfl, tidy_next rfl (by rintro _ _ ⟨⟩) (by rintro _ _ _ _ _ ⟨⟩)⟩)
  have h4 := h3.next (show Guarded _ _ _ (.next 0) _ from
    ⟨rfl, tidy_next rfl (by rintro _ _ ⟨⟩) (by rintro _ _ _ _ _ ⟨⟩ ⟨⟩)⟩)
  have h5 := h4.next (show Guarded _ _ _ (.next 0) _ from
    ⟨rfl, tidy_set rfl ⟨_, rfl, by decide⟩ (by rintro (_ | j) _ _ _ ⟨⟩; rfl) rfl⟩)
  have h6 := h5.next (show Guarded _ _ _ (.call 1 (.join (guest 2) ⟨1, ""⟩)) _ from ⟨rfl, tidy_call _ _⟩)
  have h7 := h6.next (show Guarded _ _ _ (.next 1) _ from
    ⟨rfl, tidy_lock rfl (by rintro (_ | _ | j) _ ⟨⟩ ⟨⟩)⟩)
  have h8 := h7.next (show Guarded _ _ _ (.next 1) _ from ⟨rfl, tidy_next rfl (by rintro _ _ ⟨⟩) (by rintro _ _ _ _ _ ⟨⟩)⟩)
  have h9 := h8.next (show Guarded _ _ _ (.next 1) _ from
    ⟨rfl, tidy_next rfl (by rintro _ _ ⟨⟩) (by rintro _ _ _ _ _ ⟨⟩ ⟨⟩)⟩)
  have h10 := h9.next (show Guarded _ _ _ (.next 1) _ from
    ⟨rfl, tidy_set rfl ⟨_, rfl, by decide⟩ (by rintro (_ | _ | j) _ _ _ ⟨⟩; rfl) rfl⟩)
  have h11 := h10.next (show Guarded _ _ _ (.next 1) _ from ⟨rfl, tidy_next rfl (by rintro _ _ ⟨⟩) (by rintro _ _ _ _ _ ⟨⟩)⟩)
  have h12 := h11.next (show Guarded _ _ _ (.call 2 (.leave 2)) _ from ⟨rfl, tidy_call _ _⟩)
  have h13 := h12.next (show Guarded _ _ _ (.next 2) _ from ⟨rfl, tidy_next rfl (by rintro _ _ ⟨⟩) (by rintro _ _ _ _ _ ⟨⟩)⟩)
  have h14 := h13.next (show Guarded _ _ _ (.next 2) _ from
    ⟨rfl, tidy_lock rfl (by rintro (_ | _ | _ | j) _ ⟨⟩ ⟨⟩)⟩)
  have h15 := h14.next (show Guarded _ _ _ (.next 2) _ from ⟨rfl, tidy_next rfl (by rintro _ _ ⟨⟩) (by rintro _ _ _ _ _ ⟨⟩)⟩)
  have h16 := h15.next (show Guarded _ _ _ (.next 2) _ from ⟨rfl, tidy_del rfl rfl⟩)
  have h17 := h16.next (show Guarded _ _ _ (.next 2) _ from
    ⟨rfl, tidy_next rfl (by rintro _ _ ⟨⟩) (by rintro _ _ _ _ _ ⟨⟩ ⟨⟩)⟩)
  refine ⟨_, _, h17, ?_, rfl, rfl, by decide⟩
  rintro (_ | _ | _ | i) pc hj
  · cases hj
    rfl
  · cases hj
    rfl
  · cases hj
    rfl
  · cases hj

theorem left_bijection : ∃ s, Bijection s ∧ s.members 1 = some 1 ∧ s.members 2 = none ∧
    (s.rooms 1).map Room.ids = some [1] := by
  obtain ⟨es, s, h, hq, hm⟩ := left_run
  exact ⟨s, room_membership_bijection h hq, hm⟩

def joinTwice : List Event :=
  [.call 0 (.create (guest 1) plain 0), .next 0, .next 0, .next 0, .next 0,
    .call 1 (.create (guest 2) plain 0), .next 1, .next 1, .next 1, .next 1,
    .call 2 (.join (guest 3) ⟨1, ""⟩), .next 2, .next 2, .next 2, .next 2, .next 2,
    .call 3 (.join (guest 3) ⟨2, ""⟩), .next 3, .next 3, .next 3, .next 3, .next 3]

theorem joinTwice_run : ∃ s, joinTwice.foldlM step start = some s ∧ Quiet s ∧
    Listed s 3 1 ∧ Listed s 3 2 := by
  refine ⟨_, rfl, ?_, ⟨_, rfl, by decide⟩, ⟨_, rfl, by decide⟩⟩
  rintro (_ | _ | _ | _ | i) pc hj
  all_goals
    cases hj
    try rfl

theorem join_breaks_bijection :
    ¬ ∀ es s, Run Step start es s → Quiet s → Bijection s := by
  intro hall
  obtain ⟨s, hrun, hq, h1, h2⟩ := joinTwice_run
  have := (hall joinTwice s (run_of_foldlM hrun) hq).single 3 1 2 h1 h2
  omega

end Rooms
