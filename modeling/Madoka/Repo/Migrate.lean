import Madoka.Lib.Run
import Madoka.Lib.Utf16
import Mathlib.Data.List.Infix
import Mathlib.Data.List.Nodup
import Mathlib.Data.List.Sort
import Mathlib.Logic.Function.Basic

namespace Migrate

open Lib

-- The default order of a sort: by UTF-16 units.
def byName (a b : String) : Prop := Utf16.text a ≤ Utf16.text b

instance : DecidableRel byName := fun a b => inferInstanceAs (Decidable (Utf16.text a ≤ Utf16.text b))

def isSql (file : String) : Bool := ".sql".toList.isSuffixOf file.toList

-- The migrations of a directory, in the order of their names.
def migrationFiles (dir : List String) : List String := (dir.filter isSql).insertionSort byName

-- A run of migrate between two of its queries; `left` are the files it has still to apply.
inductive Phase (δ : Type) where
  | creating
  | reading
  | next (left : List String)
  | begun (file : String) (left : List String)
  | ran (file : String) (left : List String) (work : δ)
  | inserted (file : String) (left : List String) (work : δ)
  | finished
  | failed

-- The committed rows of _migrations, those of open transactions, the schema and the runners.
structure Db (δ : Type) where
  names : List String
  open_ : List (Nat × String)
  schema : δ
  phases : Nat → Phase δ

inductive Event where
  | create (r : Nat)
  | read (r : Nat)
  | finish (r : Nat)
  | begin_ (r : Nat)
  | exec (r : Nat)
  | insert (r : Nat)
  | commit (r : Nat)
  | fail (r : Nat)
  deriving DecidableEq, Repr

namespace Db

variable {δ : Type} (dir : Nat → List String) (apply : String → δ → Option δ) (v : Db δ)

def onRunner (r : Nat) (p : Phase δ) : Db δ := { v with phases := Function.update v.phases r p }

def close (r : Nat) : Db δ := { v with open_ := v.open_.filter fun x => decide (x.1 ≠ r) }

def step : Event → Option (Db δ)
  | .create r =>
    match v.phases r with
    | .creating => some (v.onRunner r .reading)
    | _ => none
  | .read r =>
    match v.phases r with
    | .reading => some (v.onRunner r (.next ((migrationFiles (dir r)).filter fun f =>
        decide (f ∉ v.names))))
    | _ => none
  | .finish r =>
    match v.phases r with
    | .next [] => some (v.onRunner r .finished)
    | _ => none
  | .begin_ r =>
    match v.phases r with
    | .next (file :: left) => some (v.onRunner r (.begun file left))
    | _ => none
  | .exec r =>
    match v.phases r with
    | .begun file left => (apply file v.schema).map fun work => v.onRunner r (.ran file left work)
    | _ => none
  | .insert r =>
    match v.phases r with
    | .ran file left work =>
      -- a duplicate key is an error; the row of an open transaction is waited for
      if file ∈ v.names ∨ file ∈ v.open_.map Prod.snd then none
      else some ({ v with open_ := v.open_ ++ [(r, file)] }.onRunner r (.inserted file left work))
    | _ => none
  | .commit r =>
    match v.phases r with
    | .inserted file left work =>
      some (({ v with names := v.names ++ [file], schema := work }.close r).onRunner r (.next left))
    | _ => none
  -- an error of any query or the loss of the runner: its transaction is rolled back
  | .fail r =>
    match v.phases r with
    | .finished => none
    | _ => some ((v.close r).onRunner r .failed)

def Step (v : Db δ) (e : Event) (v' : Db δ) : Prop := v.step dir apply e = some v'

def start (s : δ) : Db δ := ⟨[], [], s, fun _ => .creating⟩

end Db

section Files

variable {files F names : List String} {j : Nat}

theorem filter_behind (hd : files.Nodup) (hF : F <+: files) (hn : names <+: files) :
    F.filter (fun f => decide (f ∉ names)) = F.drop names.length := by
  rcases List.prefix_or_prefix_of_prefix hF hn with h | ⟨rest, rfl⟩
  · have hnil : F.filter (fun f => decide (f ∉ names)) = [] :=
      List.filter_eq_nil_iff.mpr fun f hf => by
        rw [decide_eq_true_eq, not_not]
        exact h.subset hf
    rw [hnil, List.drop_eq_nil_of_le h.length_le]
  · have hdF := List.nodup_append.mp (hd.sublist hF.sublist)
    rw [List.filter_append, List.drop_left]
    have hfront : names.filter (fun f => decide (f ∉ names)) = [] :=
      List.filter_eq_nil_iff.mpr fun f hf => by simpa using hf
    have hback : rest.filter (fun f => decide (f ∉ names)) = rest :=
      List.filter_eq_self.mpr fun f hf => by
        rw [decide_eq_true_eq]
        exact fun hin => hdF.2.2 f hin f hf rfl
    rw [hfront, hback, List.nil_append]

variable {file : String} {left : List String}

theorem behind_of_new (hF : F <+: files) (hn : names <+: files) (hj : j ≤ names.length)
    (hleft : file :: left = F.drop j) (hnew : file ∉ names) : j = names.length := by
  rcases List.prefix_or_prefix_of_prefix hF hn with h | ⟨rest, rfl⟩
  · have hin : file ∈ F := List.mem_of_mem_drop (hleft ▸ List.mem_cons_self)
    exact absurd (h.subset hin) hnew
  · rcases Nat.lt_or_eq_of_le hj with hlt | heq
    · rw [List.drop_append_of_le_length hj] at hleft
      have hne : names.drop j ≠ [] := by
        rw [ne_eq, List.drop_eq_nil_iff]
        omega
      obtain ⟨f, more, hmore⟩ := List.exists_cons_of_ne_nil hne
      rw [hmore, List.cons_append] at hleft
      obtain ⟨rfl, -⟩ := List.cons.inj hleft
      exact absurd (List.mem_of_mem_drop (hmore ▸ List.mem_cons_self)) hnew
    · exact heq

theorem prefix_next (hF : F <+: files) (hn : names <+: files)
    (hleft : file :: left = F.drop names.length) : names ++ [file] <+: F := by
  rcases List.prefix_or_prefix_of_prefix hF hn with h | ⟨rest, rfl⟩
  · rw [List.drop_eq_nil_of_le h.length_le] at hleft
    exact absurd hleft (List.cons_ne_nil _ _)
  · rw [List.drop_left] at hleft
    exact ⟨left, by rw [← hleft, List.append_assoc]; rfl⟩

theorem prefix_done (hF : F <+: files) (hn : names <+: files) (hj : j ≤ names.length)
    (hdone : [] = F.drop j) : F <+: names := by
  have hlen := List.drop_eq_nil_iff.mp hdone.symm
  exact List.prefix_of_prefix_length_le hF hn (hlen.trans hj)

end Files

-- What a runner has to apply is behind what is committed, or the file that comes next.
inductive Phase.Ready {δ : Type} (apply : String → δ → Option δ) (F names : List String) (s : δ) :
    Phase δ → Prop where
  | creating : Ready apply F names s .creating
  | reading : Ready apply F names s .reading
  | failed : Ready apply F names s .failed
  | finished : F <+: names → Ready apply F names s .finished
  | next {left j} : left = F.drop j → j ≤ names.length → Ready apply F names s (.next left)
  | begun {file left j} : file :: left = F.drop j → j ≤ names.length →
    Ready apply F names s (.begun file left)
  | ran {file left work j} : file :: left = F.drop j → j ≤ names.length →
    (j = names.length → apply file s = some work) → Ready apply F names s (.ran file left work)
  | inserted {file left work} : file :: left = F.drop names.length → apply file s = some work →
    Ready apply F names s (.inserted file left work)

namespace Db

variable {δ : Type} {dir : Nat → List String} {apply : String → δ → Option δ} {v v' : Db δ}
  {e : Event} {es : List Event} {files : List String} {s0 : δ} {r : Nat}

structure Orderly (dir : Nat → List String) (apply : String → δ → Option δ) (files : List String)
    (s0 : δ) (v : Db δ) : Prop where
  names : v.names <+: files
  schema : v.names.foldlM (fun s f => apply f s) s0 = some v.schema
  ready : ∀ r, (v.phases r).Ready apply (migrationFiles (dir r)) v.names v.schema
  rows : ∀ r f, (r, f) ∈ v.open_ ↔ ∃ left work, v.phases r = .inserted f left work
  locks : (v.open_.map Prod.snd).Nodup

theorem phases_self {p : Phase δ} : (v.onRunner r p).phases r = p := Function.update_self ..

theorem phases_of_ne {r' : Nat} {p : Phase δ} (h : r' ≠ r) :
    (v.onRunner r p).phases r' = v.phases r' := Function.update_of_ne h ..

theorem Orderly.onRunner {p : Phase δ} (h : Orderly dir apply files s0 v)
    (hp : p.Ready apply (migrationFiles (dir r)) v.names v.schema)
    (hout : ∀ f left work, v.phases r ≠ .inserted f left work)
    (hout' : ∀ f left work, p ≠ .inserted f left work) : Orderly dir apply files s0 (v.onRunner r p) where
  names := h.names
  schema := h.schema
  ready := by
    intro r'
    by_cases hr : r' = r
    · subst hr
      rw [phases_self]
      exact hp
    · rw [phases_of_ne hr]
      exact h.ready r'
  rows := by
    intro r' f
    by_cases hr : r' = r
    · subst hr
      rw [phases_self]
      constructor
      · intro hin
        obtain ⟨left, work, heq⟩ := (h.rows r' f).mp hin
        exact absurd heq (hout f left work)
      · rintro ⟨left, work, heq⟩
        exact absurd heq (hout' f left work)
    · rw [phases_of_ne hr]
      exact h.rows r' f
  locks := h.locks

theorem Orderly.insert {file : String} {left : List String} {work : δ}
    (hdir : ∀ r, migrationFiles (dir r) <+: files) (h : Orderly dir apply files s0 v)
    (hran : v.phases r = .ran file left work) (hnew : file ∉ v.names)
    (hlock : file ∉ v.open_.map Prod.snd) : Orderly dir apply files s0
      ({ v with open_ := v.open_ ++ [(r, file)] }.onRunner r (.inserted file left work)) := by
  have hready := h.ready r
  rw [hran] at hready
  have hmine : file :: left = (migrationFiles (dir r)).drop v.names.length ∧
      apply file v.schema = some work := by
    cases hready with
    | ran hleft hj hwork =>
      have hnow := behind_of_new (hdir r) h.names hj hleft hnew
      exact ⟨hnow ▸ hleft, hwork hnow⟩
  refine ⟨h.names, h.schema, fun r' => ?_, fun r' f => ?_, ?_⟩
  · by_cases hr : r' = r
    · subst hr
      rw [phases_self]
      exact .inserted hmine.1 hmine.2
    · rw [phases_of_ne hr]
      exact h.ready r'
  · change (r', f) ∈ v.open_ ++ [(r, file)] ↔ _
    rw [List.mem_append, List.mem_singleton, Prod.mk.injEq]
    by_cases hr : r' = r
    · subst hr
      rw [phases_self]
      constructor
      · rintro (hin | ⟨-, rfl⟩)
        · obtain ⟨left', work', heq⟩ := (h.rows r' f).mp hin
          rw [hran] at heq
          cases heq
        · exact ⟨left, work, rfl⟩
      · rintro ⟨left', work', heq⟩
        exact Or.inr ⟨rfl, (Phase.inserted.inj heq).1.symm⟩
    · rw [phases_of_ne hr]
      constructor
      · rintro (hin | ⟨heq, -⟩)
        · exact (h.rows r' f).mp hin
        · exact absurd heq hr
      · exact fun hp => Or.inl ((h.rows r' f).mpr hp)
  · change ((v.open_ ++ [(r, file)]).map Prod.snd).Nodup
    rw [List.map_append]
    refine List.nodup_append.mpr ⟨h.locks, List.nodup_singleton _, fun a ha b hb hab => hlock ?_⟩
    obtain rfl : b = file := by simpa using hb
    exact hab ▸ ha

theorem Orderly.commit {file : String} {left : List String} {work : δ}
    (hdir : ∀ r, migrationFiles (dir r) <+: files) (h : Orderly dir apply files s0 v)
    (hins : v.phases r = .inserted file left work) : Orderly dir apply files s0
      (({ v with names := v.names ++ [file], schema := work }.close r).onRunner r (.next left)) := by
  have hnext : ∀ r' f left work, v.phases r' = .inserted f left work →
      v.names ++ [f] <+: migrationFiles (dir r') ∧ f :: left = (migrationFiles (dir r')).drop
        v.names.length ∧ apply f v.schema = some work := fun r' f left work hp => by
    have hready := h.ready r'
    rw [hp] at hready
    cases hready with
    | inserted hleft hwork => exact ⟨prefix_next (hdir r') h.names hleft, hleft, hwork⟩
  obtain ⟨hF, hleft, hwork⟩ := hnext r file left work hins
  have hnames : v.names ++ [file] <+: files := hF.trans (hdir r)
  have hsole : ∀ r' f left work, v.phases r' = .inserted f left work → r' = r :=
    fun r' f left' work' hp => by
      have hother := (hnext r' f left' work' hp).1.trans (hdir r')
      have hlists : v.names ++ [f] = v.names ++ [file] :=
        (List.prefix_of_prefix_length_le hother hnames (by simp)).eq_of_length (by simp)
      obtain rfl : f = file := by simpa using hlists
      have hrow := (h.rows r' f).mpr ⟨left', work', hp⟩
      have hrow' := (h.rows r f).mpr ⟨left, work, hins⟩
      exact congrArg Prod.fst (List.inj_on_of_nodup_map h.locks hrow hrow' rfl)
  refine ⟨hnames, ?_, fun r' => ?_, fun r' f => ?_, ?_⟩
  · change (v.names ++ [file]).foldlM (fun s f => apply f s) s0 = some work
    rw [List.foldlM_append, h.schema]
    simp [hwork]
  · by_cases hr : r' = r
    · subst hr
      rw [phases_self]
      refine .next (j := v.names.length + 1) ?_ (by simp [close, Db.onRunner])
      rw [← List.drop_drop, ← hleft, List.drop_one, List.tail_cons]
    · rw [phases_of_ne hr]
      change Phase.Ready apply _ (v.names ++ [file]) work (v.phases r')
      have hready := h.ready r'
      generalize hp : v.phases r' = p at hready
      cases hready with
      | creating => exact .creating
      | reading => exact .reading
      | failed => exact .failed
      | finished hF => exact .finished (hF.trans (List.prefix_append _ _))
      | next hl hj => exact .next hl (hj.trans (by simp))
      | begun hl hj => exact .begun hl (hj.trans (by simp))
      | ran hl hj _ =>
        refine .ran hl (hj.trans (by simp)) fun heq => ?_
        rw [List.length_append, List.length_singleton] at heq
        omega
      | inserted _ _ => exact absurd (hsole r' _ _ _ hp) hr
  · change (r', f) ∈ v.open_.filter _ ↔ _
    rw [List.mem_filter, decide_eq_true_eq]
    by_cases hr : r' = r
    · subst hr
      rw [phases_self]
      constructor
      · exact fun hin => absurd rfl hin.2
      · rintro ⟨left', work', heq⟩
        cases heq
    · rw [phases_of_ne hr]
      exact ⟨fun hin => (h.rows r' f).mp hin.1, fun hp => ⟨(h.rows r' f).mpr hp, hr⟩⟩
  · exact h.locks.sublist (List.filter_sublist.map _)

theorem Orderly.fail (h : Orderly dir apply files s0 v) :
    Orderly dir apply files s0 ((v.close r).onRunner r .failed) := by
  refine ⟨h.names, h.schema, fun r' => ?_, fun r' f => ?_, h.locks.sublist (List.filter_sublist.map _)⟩
  · by_cases hr : r' = r
    · subst hr
      rw [phases_self]
      exact .failed
    · rw [phases_of_ne hr]
      exact h.ready r'
  · change (r', f) ∈ v.open_.filter _ ↔ _
    rw [List.mem_filter, decide_eq_true_eq]
    by_cases hr : r' = r
    · subst hr
      rw [phases_self]
      constructor
      · exact fun hin => absurd rfl hin.2
      · rintro ⟨left', work', heq⟩
        cases heq
    · rw [phases_of_ne hr]
      exact ⟨fun hin => (h.rows r' f).mp hin.1, fun hp => ⟨(h.rows r' f).mpr hp, hr⟩⟩

theorem orderly_step (hd : files.Nodup) (hdir : ∀ r, migrationFiles (dir r) <+: files)
    (h : Orderly dir apply files s0 v) (hs : v.Step dir apply e v') : Orderly dir apply files s0 v' := by
  have hout : ∀ {r p}, v.phases r = p → (∀ f left work, p ≠ .inserted f left work) →
      ∀ f left work, v.phases r ≠ .inserted f left work := fun hp hne f left work => hp ▸ hne f left work
  have hready : ∀ {r p}, v.phases r = p → p.Ready apply (migrationFiles (dir r)) v.names v.schema :=
    fun hp => hp ▸ h.ready _
  unfold Step step at hs
  cases e with
  | create r =>
    dsimp only at hs
    split at hs
    · rename_i hp
      cases hs
      exact h.onRunner .reading (hout hp (by rintro _ _ _ ⟨⟩)) (by rintro _ _ _ ⟨⟩)
    · cases hs
  | read r =>
    dsimp only at hs
    split at hs
    · rename_i hp
      cases hs
      refine h.onRunner (.next (filter_behind hd (hdir r) h.names) (Nat.le_refl _))
        (hout hp (by rintro _ _ _ ⟨⟩)) (by rintro _ _ _ ⟨⟩)
    · cases hs
  | finish r =>
    dsimp only at hs
    split at hs
    · rename_i hp
      cases hs
      have hr := hready hp
      cases hr with
      | next hl hj =>
        exact h.onRunner (.finished (prefix_done (hdir r) h.names hj hl))
          (hout hp (by rintro _ _ _ ⟨⟩)) (by rintro _ _ _ ⟨⟩)
    · cases hs
  | begin_ r =>
    dsimp only at hs
    split at hs
    · rename_i hp
      cases hs
      have hr := hready hp
      cases hr with
      | next hl hj =>
        exact h.onRunner (.begun hl hj) (hout hp (by rintro _ _ _ ⟨⟩)) (by rintro _ _ _ ⟨⟩)
    · cases hs
  | exec r =>
    dsimp only at hs
    split at hs
    · rename_i hp
      obtain ⟨work, hwork, rfl⟩ := Option.map_eq_some_iff.mp hs
      have hr := hready hp
      cases hr with
      | begun hl hj =>
        exact h.onRunner (.ran hl hj fun _ => hwork) (hout hp (by rintro _ _ _ ⟨⟩))
          (by rintro _ _ _ ⟨⟩)
    · cases hs
  | insert r =>
    dsimp only at hs
    split at hs
    · rename_i hp
      obtain ⟨hfree, hv⟩ := Option.ite_none_left_eq_some.mp hs
      rw [not_or] at hfree
      cases hv
      exact h.insert hdir hp hfree.1 hfree.2
    · cases hs
  | commit r =>
    dsimp only at hs
    split at hs
    · rename_i hp
      cases hs
      exact h.commit hdir hp
    · cases hs
  | fail r =>
    dsimp only at hs
    split at hs
    · cases hs
    · cases hs
      exact h.fail

theorem orderly_start : Orderly dir apply files s0 (start s0) where
  names := List.nil_prefix
  schema := rfl
  ready := fun _ => .creating
  rows := by
    intro r f
    constructor
    · exact fun hin => absurd hin List.not_mem_nil
    · rintro ⟨left, work, heq⟩
      cases heq
  locks := List.nodup_nil

-- However many runners start, fail and are started again, from images whose files extend one
-- another: the files are applied in the order of their names, each once and to what the ones before
-- it made, and a runner that ends well leaves none of its own out.
theorem migrations_in_order (hd : files.Nodup) (hdir : ∀ r, migrationFiles (dir r) <+: files)
    (h : Run (Step dir apply) (start s0) es v) :
    v.names <+: files ∧ v.names.foldlM (fun s f => apply f s) s0 = some v.schema ∧
      ∀ r, v.phases r = .finished → migrationFiles (dir r) <+: v.names := by
  have hi := run_invariant (I := fun v => Orderly dir apply files s0 v) h orderly_start
    fun ho hs => orderly_step hd hdir ho hs
  refine ⟨hi.names, hi.schema, fun r hp => ?_⟩
  have hready := hi.ready r
  rw [hp] at hready
  cases hready with
  | finished hF => exact hF

-- The images of before and after the second migration.
def images (r : Nat) : List String :=
  if r = 0 then ["002_promoted.sql", "001_accounts.sql", "README"] else ["001_accounts.sql"]

-- Two runners race for the first file, and a third one comes when it is applied.
def race : List Event :=
  [.create 0, .create 1, .read 1, .read 0, .begin_ 0, .begin_ 1, .exec 1, .exec 0, .insert 0, .commit 0,
    .fail 1, .begin_ 0, .create 2, .read 2, .finish 2, .exec 0, .insert 0, .commit 0, .finish 0]

theorem race_in_order : ∃ v, Run (Step images fun f s => some (s ++ [f])) (start []) race v ∧
    v.names = ["001_accounts.sql", "002_promoted.sql"] ∧
    v.names <+: ["001_accounts.sql", "002_promoted.sql"] := by
  have hrun : (race.foldlM (step images fun f s => some (s ++ [f])) (start [])).map (fun v => v.names) =
      some ["001_accounts.sql", "002_promoted.sql"] := by
    decide +kernel
  obtain ⟨v, hv, hnames⟩ := Option.map_eq_some_iff.mp hrun
  refine ⟨v, run_of_foldlM hv, hnames, (migrations_in_order (by decide) (fun r => ?_)
    (run_of_foldlM hv)).1⟩
  by_cases hr : r = 0
  · subst hr
    decide +kernel
  · have himage : images r = ["001_accounts.sql"] := if_neg hr
    rw [himage]
    decide +kernel

end Db

end Migrate
