import Madoka.Settings.Events

namespace Settings

open Lib MatchServer

variable {t : Sheets} {room : RoomRecord} {adv : Overlay} {p : Payload}

theorem i32Of_lt (b : List Nat) : i32Of b < 4294967296 := by
  have h := Int.bmod_lt (x := (b.getD 0 0 + 256 * b.getD 1 0 + 65536 * b.getD 2 0 + 16777216 * b.getD 3 0 : Nat))
    (m := 4294967296) (by decide)
  unfold i32Of
  omega

theorem advancedOf_some (h : advancedOf t room = some adv) : adv = overlayOf t room.blob := by
  unfold advancedOf at h
  split at h
  · exact decodeAdvanced_some h
  · cases h

theorem byteAt_lt (buf : List UInt8) (i : Nat) : byteAt buf i < 256 :=
  UInt8.toNat_lt _

-- What the host decided of the rounds and the economy: the blob before the bitfields.
def hostRounds (t : Sheets) (room : RoomRecord) : Option Nat :=
  match advancedOf t room with
  | some adv => if adv.roundCount ≠ 0 then some adv.roundCount else (decodeRoomSettings room).roundCount
  | none => (decodeRoomSettings room).roundCount

def simpleEconomy (room : RoomRecord) : Option (List Int) :=
  (decodeRoomSettings room).economyTable.map fun table => table.map Int.ofNat

def hostEconomy (t : Sheets) (room : RoomRecord) : Option (List Int) :=
  match advancedOf t room with
  | some adv => if adv.perRoundBase ≠ [] then some adv.perRoundBase else simpleEconomy room
  | none => simpleEconomy room

def hostShop (t : Sheets) (room : RoomRecord) : List ShopEntry :=
  match advancedOf t room with
  | some adv => adv.shopItems
  | none => []

def hostEvents (t : Sheets) (room : RoomRecord) : Option (List (String × Int)) :=
  (advancedOf t room).bind Overlay.events

theorem startPayload_eq (t : Sheets) (room : RoomRecord) : startPayload t room =
    { flags := (decodeRoomSettings room).flags
      maxHP := (decodeRoomSettings room).maxHP
      roomSetting := (decodeRoomSettings room).roomSetting
      roomSetting2 := (decodeRoomSettings room).roomSetting2
      speedMul := (decodeRoomSettings room).speedMul
      jumpMul := (decodeRoomSettings room).jumpMul
      shopItems := hostShop t room
      events := hostEvents t room
      roundCount := hostRounds t room
      economy := hostEconomy t room } := by
  unfold startPayload hostShop hostEvents hostRounds hostEconomy simpleEconomy
  cases advancedOf t room <;> rfl

theorem hostRounds_range {n : Nat} (h : hostRounds t room = some n) : 0 < n ∧ n < 256 := by
  have hsimple : ∀ n, (decodeRoomSettings room).roundCount = some n → 0 < n ∧ n < 256 := by
    intro n hn
    have hall : ∀ x ∈ TABLES.roundNum.map Prod.snd, 0 < x ∧ x < 256 := by decide
    exact hall n (resolve_mem hn)
  unfold hostRounds at h
  split at h
  · rename_i adv hadv
    split at h
    · rename_i hne
      obtain rfl := Option.some.inj h
      refine ⟨Nat.pos_of_ne_zero hne, ?_⟩
      rw [advancedOf_some hadv]
      exact byteAt_lt _ _
    · exact hsimple n h
  · exact hsimple n h

theorem maxHP_range {n : Nat} (h : (decodeRoomSettings room).maxHP = some n) : 0 < n ∧ n < 65536 := by
  have hall : ∀ x ∈ TABLES.playerHP.map Prod.snd, 0 < x ∧ x < 65536 := by decide
  exact hall n (resolve_mem h)

theorem hostEconomy_range {l : List Int} (h : hostEconomy t room = some l) :
    l ≠ [] ∧ ∀ c ∈ l, inUint32 c := by
  have hsimple : ∀ l, simpleEconomy room = some l → l ≠ [] ∧ ∀ c ∈ l, inUint32 c := by
    intro l hl
    have hall : ∀ x ∈ TABLES.initCoin.map Prod.snd, x ≠ [] ∧ ∀ c ∈ x, c < 4294967296 := by decide
    obtain ⟨table, htable, rfl⟩ := Option.map_eq_some_iff.mp hl
    obtain ⟨hne, hc⟩ := hall table (resolve_mem htable)
    refine ⟨by simpa using hne, fun c hmem => ?_⟩
    obtain ⟨n, hn, rfl⟩ := List.mem_map.mp hmem
    exact ⟨Int.natCast_nonneg n, hc n hn⟩
  unfold hostEconomy at h
  split at h
  · rename_i adv hadv
    split at h
    · rename_i hne
      obtain rfl := Option.some.inj h
      refine ⟨hne, fun c hmem => ?_⟩
      rw [advancedOf_some hadv] at hmem
      obtain ⟨v, hv, rfl⟩ := List.mem_map.mp hmem
      obtain ⟨i, -, rfl⟩ := List.mem_map.mp hv
      have hlt := i32Of_lt [byteAt room.blob (roundOffset room.blob + 1 + 4 * i),
        byteAt room.blob (roundOffset room.blob + 1 + 4 * i + 1),
        byteAt room.blob (roundOffset room.blob + 1 + 4 * i + 2),
        byteAt room.blob (roundOffset room.blob + 1 + 4 * i + 3)]
      unfold inUint32 coinAt
      omega
    · exact hsimple l h
  · exact hsimple l h

theorem startPayload_fits : (startPayload t room).Fits ↔
    (∀ e ∈ hostShop t room, e.Fits) ∧ ∀ o ∈ hostEvents t room, EventsFit o := by
  have hrounds : (hostRounds t room).getD 0 < 256 := by
    cases h : hostRounds t room with
    | none => decide
    | some n => exact (hostRounds_range h).2
  have hhp : (decodeRoomSettings room).maxHP.getD 0 < 65536 := by
    cases h : (decodeRoomSettings room).maxHP with
    | none => decide
    | some n => exact (maxHP_range h).2
  have heconomy : ∀ c ∈ (hostEconomy t room).getD [], inUint32 c := by
    cases h : hostEconomy t room with
    | none => simp
    | some l => exact (hostEconomy_range h).2
  rw [startPayload_eq]
  constructor
  · rintro ⟨-, -, -, -, -, hshop, hevents⟩
    exact ⟨hshop, hevents⟩
  · rintro ⟨hshop, hevents⟩
    exact ⟨hrounds, hhp, heconomy, room.roomSetting.isLt, room.roomSetting2.isLt, hshop, hevents⟩

def ShopRow.Fits (row : ShopRow) : Prop :=
  inUint32 row.itemId ∧ inByte row.filter ∧ inByte row.limitation ∧ inUint32 row.ammo

instance (row : ShopRow) : Decidable row.Fits := inferInstanceAs (Decidable (_ ∧ _))

-- The coins of an event fit its field whatever step the host picks.
def EcoRow.Fits (row : EcoRow) : Prop :=
  ∀ step < 256, inUint32 (row.min + (step : Nat) * row.step)

structure Sheets.Fits (t : Sheets) : Prop where
  shop : ∀ idx row, t.shop idx = some row → row.Fits
  eco : ∀ evId row, t.eco evId = some row → row.Fits

-- A row of the shop that the match server has a slot for.
def Placeable (t : Sheets) (idx : Nat) (row : ShopRow) : Prop :=
  t.shop idx = some row ∧ resolveSlotKind row.itemId row.ammo row.filter (t.itemType row.itemId) ≠ none

theorem shopEntry_inl {idx step : Nat} {e : ShopEntry} (h : shopEntry t idx step = .inl e)
    (hstep : step < 256) : ∃ row, Placeable t idx row ∧ (e.Fits ↔ row.Fits) := by
  unfold shopEntry at h
  split at h
  · cases h
  · rename_i row hrow
    split at h
    · cases h
    · rename_i slotKind hslot
      refine ⟨row, ⟨hrow, by rw [hslot]; exact Option.some_ne_none slotKind⟩, ?_⟩
      obtain rfl := Sum.inl.inj h
      have hprice : inUint32 (step * CS_SHOP_COST_INTERVAL : Nat) := by
        unfold inUint32 CS_SHOP_COST_INTERVAL
        omega
      exact ⟨fun hfits => ⟨hfits.1, hfits.2.2⟩, fun hfits => ⟨hfits.1, hprice, hfits.2⟩⟩

theorem Placeable.entry {idx : Nat} {row : ShopRow} (h : Placeable t idx row) (step : Nat) :
    ∃ e, shopEntry t idx step = .inl e := by
  obtain ⟨hrow, hslot⟩ := h
  obtain ⟨slotKind, hslot⟩ := Option.ne_none_iff_exists'.mp hslot
  unfold shopEntry
  rw [hrow]
  dsimp only
  rw [hslot]
  exact ⟨_, rfl⟩

theorem mem_hostShop {e : ShopEntry} (h : e ∈ hostShop t room) :
    ∃ p ∈ stores room.blob, shopEntry t p.1 p.2 = .inl e := by
  unfold hostShop at h
  split at h
  · rename_i adv hadv
    rw [advancedOf_some hadv] at h
    obtain ⟨p, hp, he⟩ := List.mem_filterMap.mp h
    exact ⟨p, hp, Sum.getLeft?_eq_some_iff.mp he⟩
  · cases h

theorem stores_lt {buf : List UInt8} {p : Nat × Nat} (h : p ∈ stores buf) : p.2 < 256 := by
  obtain ⟨i, -, rfl⟩ := List.mem_map.mp h
  exact byteAt_lt _ _

theorem ecos_lt {buf : List UInt8} {p : Nat × Nat} (h : p ∈ ecos buf) : p.2 < 256 := by
  obtain ⟨i, -, rfl⟩ := List.mem_map.mp h
  exact byteAt_lt _ _

theorem hostShop_fits (ht : t.Fits) : ∀ e ∈ hostShop t room, e.Fits := by
  intro e he
  obtain ⟨p, hp, hentry⟩ := mem_hostShop he
  obtain ⟨row, hrow, hfits⟩ := shopEntry_inl hentry (stores_lt hp)
  exact hfits.mpr (ht.shop p.1 row hrow.1)

theorem hostEvents_some {o : List (String × Int)} (h : hostEvents t room = some o) :
    o = eventsOf t room.blob := by
  obtain ⟨adv, hadv, ho⟩ := Option.bind_eq_some_iff.mp h
  rw [advancedOf_some hadv, overlayOf] at ho
  dsimp only at ho
  split at ho
  · cases ho
  · exact (Option.some.inj ho).symm

theorem coins_eventsOf (evId : Nat) {name : String} (h : ECO_EVENT_KEY.lookup evId = some name) :
    coins (eventsOf t room.blob) name = (eventValue t (ecos room.blob) evId).getD 0 := by
  unfold coins eventsOf
  rw [lookup_events h]

theorem eventsFit_iff : EventsFit (eventsOf t room.blob) ↔
    ∀ f ∈ ECO_EVENT_KEY, inUint32 ((eventValue t (ecos room.blob) f.1).getD 0) := by
  unfold EventsFit
  rw [coins_eventsOf 152 rfl, coins_eventsOf 153 rfl, coins_eventsOf 154 rfl,
    coins_eventsOf 155 rfl, coins_eventsOf 156 rfl, coins_eventsOf 157 rfl]
  simp [ECO_EVENT_KEY]

theorem eventValue_fits (ht : t.Fits) (evId : Nat) :
    inUint32 ((eventValue t (ecos room.blob) evId).getD 0) := by
  have hzero : inUint32 0 := by decide
  cases hvalue : eventValue t (ecos room.blob) evId with
  | none => exact hzero
  | some v =>
    obtain ⟨step, hstep, hrow⟩ := Option.bind_eq_some_iff.mp hvalue
    obtain ⟨row, heco, rfl⟩ := Option.map_eq_some_iff.mp hrow
    obtain ⟨p, hp, rfl⟩ := Option.map_eq_some_iff.mp hstep
    have hmem := List.mem_of_getLast? hp
    exact ht.eco evId row heco p.2 (ecos_lt (List.mem_of_mem_filter hmem))

theorem startPayload_fits_of (ht : t.Fits) (room : RoomRecord) : (startPayload t room).Fits := by
  refine startPayload_fits.mpr ⟨hostShop_fits ht, fun o ho => ?_⟩
  rw [hostEvents_some ho]
  exact eventsFit_iff.mpr fun f _ => eventValue_fits ht f.1

def Sells (item : ShopItem) (e : ShopEntry) : Prop :=
  (item.itemID : Int) = e.itemId ∧ item.price = e.price ∧ (item.filter : Int) = e.filter ∧
    (item.limitation : Int) = e.limitation ∧ item.bonus = e.bonus ∧ (item.ammo : Int) = e.ammo ∧
    item.slotKind = e.slotKind

def Pays (events : CsEvents) (o : List (String × Int)) : Prop :=
  (events.winRound : Int) = coins o "win_round" ∧ (events.perKill : Int) = coins o "per_kill" ∧
    (events.lossRound : Int) = coins o "loss_round" ∧ (events.lossStreak2 : Int) = coins o "loss_streak2" ∧
    (events.lossStreak3 : Int) = coins o "loss_streak3" ∧ (events.firstBlood : Int) = coins o "first_blood"

theorem sells_item {e : ShopEntry} (h : e.Fits) : Sells e.item e :=
  ⟨Int.toNat_of_nonneg h.1.1, rfl, Int.toNat_of_nonneg h.2.2.1.1, Int.toNat_of_nonneg h.2.2.2.1.1, rfl,
    Int.toNat_of_nonneg h.2.2.2.2.1, rfl⟩

theorem pays_eventsIn {o : List (String × Int)} (h : EventsFit o) : Pays (eventsIn o) o :=
  ⟨Int.toNat_of_nonneg h.1.1, Int.toNat_of_nonneg h.2.1.1, Int.toNat_of_nonneg h.2.2.1.1,
    Int.toNat_of_nonneg h.2.2.2.1.1, Int.toNat_of_nonneg h.2.2.2.2.1.1, Int.toNat_of_nonneg h.2.2.2.2.2.1⟩

theorem forall₂_sells {l : List ShopEntry} (h : ∀ e ∈ l, e.Fits) :
    List.Forall₂ Sells (l.map ShopEntry.item) l := by
  induction l with
  | nil => exact List.Forall₂.nil
  | cons e l ih =>
    exact List.Forall₂.cons (sells_item (h e List.mem_cons_self))
      (ih fun e' he' => h e' (List.mem_cons_of_mem e he'))

structure Carried (t : Sheets) (room : RoomRecord) (wire : WireSettings) : Prop where
  roundCount : wire.roundCount.val = (hostRounds t room).getD 0
  maxHP : wire.maxHP.val = (decodeRoomSettings room).maxHP.getD 0
  economy : wire.economy.map Int.ofNat = (hostEconomy t room).getD []
  flags : wire.flags = decodeFlags room.roomSetting room.roomSetting2
  roomSetting : wire.roomSetting = room.roomSetting.toNat
  roomSetting2 : wire.roomSetting2 = room.roomSetting2.toNat
  shopItems : List.Forall₂ Sells wire.shopItems (hostShop t room)
  events : Option.Rel Pays wire.events (hostEvents t room)

theorem map_toNat {l : List Int} (h : ∀ c ∈ l, inUint32 c) : (l.map Int.toNat).map Int.ofNat = l := by
  rw [List.map_map]
  exact (List.map_congr_left fun c hc => Int.toNat_of_nonneg (h c hc).1).trans (List.map_id l)

theorem carried_wire (h : (startPayload t room).Fits) : Carried t room (startPayload t room).wire := by
  rw [startPayload_eq] at h ⊢
  obtain ⟨hrounds, hhp, heconomy, -, -, hshop, hevents⟩ := h
  constructor
  · exact Nat.mod_eq_of_lt hrounds
  · exact Nat.mod_eq_of_lt hhp
  · unfold Payload.wire
    dsimp only
    exact map_toNat heconomy
  · rfl
  · rfl
  · rfl
  · exact forall₂_sells hshop
  · unfold Payload.wire
    dsimp only
    cases ho : hostEvents t room with
    | none => exact Option.Rel.none
    | some o => exact Option.Rel.some (pays_eventsIn (hevents o ho))

-- The blob is read inside its bounds, and the match server takes the JSON of every room.
theorem handoff_carries (t : Sheets) (ht : t.Fits) (room : RoomRecord) :
    Reader.InBounds room.blob (readSections t room.blob start).2 ∧
      ∃ wire, wireSettings (startPayload t room).toJson = some wire ∧ Carried t room wire := by
  have hfits := startPayload_fits_of ht room
  refine ⟨safe_readSections _ _ fun i hi => absurd hi List.not_mem_nil, (startPayload t room).wire, ?_,
    carried_wire hfits⟩
  rw [wireSettings_toJson, if_pos hfits]

-- The sheets as the smoke test of the decoder has them.
def smokeSheets : Sheets where
  shop := fun idx => if idx = 5 then some ⟨33, 201, 1, 0, false⟩ else none
  itemType := fun _ => 0
  eco := fun evId => if 152 ≤ evId ∧ evId ≤ 157 then some ⟨0, 50⟩ else none

theorem smokeSheets_fits : smokeSheets.Fits where
  shop := by
    intro idx row h
    unfold smokeSheets at h
    dsimp only at h
    split at h
    · obtain rfl := Option.some.inj h
      decide
    · cases h
  eco := by
    intro evId row h step hstep
    unfold smokeSheets at h
    dsimp only at h
    split at h
    · obtain rfl := Option.some.inj h
      have hcoins : inUint32 (0 + (step : Nat) * 50) := by
        unfold inUint32
        omega
      exact hcoins
    · cases h

-- An advanced room with one gun for 1100 coins, 600 for a won round, and one round.
def smokeBlob : List UInt8 := [1, 5, 22, 1, 152, 12, 1, 244, 1, 0, 0]

def advancedRoom (blob : List UInt8) : RoomRecord :=
  ⟨0, 0, true, Base64.padded Base64.standard blob⟩

theorem blob_advancedRoom (blob : List UInt8) : (advancedRoom blob).blob = blob :=
  Base64.decodeLenient_padded rfl blob

theorem handoff_carries_smoke :
    Reader.InBounds (advancedRoom smokeBlob).blob (readSections smokeSheets (advancedRoom smokeBlob).blob start).2 ∧
      ∃ wire, wireSettings (startPayload smokeSheets (advancedRoom smokeBlob)).toJson = some wire ∧
        Carried smokeSheets (advancedRoom smokeBlob) wire :=
  handoff_carries smokeSheets smokeSheets_fits (advancedRoom smokeBlob)

-- Columns that each fit their field, with a step whose multiple does not.
def steepSheets : Sheets :=
  { smokeSheets with eco := fun evId => if evId = 152 then some ⟨0, 2147483648⟩ else none }

def steepRoom : RoomRecord := advancedRoom [0, 1, 152, 2, 0]

theorem steep_columns :
    (∀ idx row, steepSheets.shop idx = some row → row.Fits) ∧
      (∀ evId row, steepSheets.eco evId = some row → inUint32 row.min ∧ inUint32 row.step) ∧
        wireSettings (startPayload steepSheets steepRoom).toJson = none := by
  refine ⟨smokeSheets_fits.shop, fun evId row h => ?_, ?_⟩
  · unfold steepSheets at h
    dsimp only at h
    split at h
    · obtain rfl := Option.some.inj h
      decide
    · cases h
  · rw [wireSettings_toJson, if_neg]
    decide +kernel

def shopCatalogue (csShopItems : List ShopItem) (s : MatchSettings) : List ShopItem :=
  s.shopItems.getD csShopItems

-- The catalogue is the list of the host and not the default one.
def Enforced (csShopItems : List ShopItem) (s : MatchSettings) (listed : List ShopEntry) : Prop :=
  s.shopItems ≠ none ∧ List.Forall₂ Sells (shopCatalogue csShopItems s) listed

theorem hostShop_eq (hadv : advancedOf t room = some adv) :
    hostShop t room = (stores room.blob).filterMap fun p => (shopEntry t p.1 p.2).getLeft? := by
  unfold hostShop
  rw [hadv]
  dsimp only
  rw [advancedOf_some hadv]
  rfl

theorem hostShop_ne_nil (hadv : advancedOf t room = some adv) :
    hostShop t room ≠ [] ↔ ∃ p ∈ stores room.blob, ∃ row, Placeable t p.1 row := by
  constructor
  · intro hne
    obtain ⟨e, he⟩ := List.exists_mem_of_ne_nil _ hne
    obtain ⟨p, hp, hentry⟩ := mem_hostShop he
    obtain ⟨row, hrow, -⟩ := shopEntry_inl hentry (stores_lt hp)
    exact ⟨p, hp, row, hrow⟩
  · rintro ⟨p, hp, row, hrow⟩
    obtain ⟨e, he⟩ := hrow.entry p.2
    rw [hostShop_eq hadv]
    exact List.ne_nil_of_mem (List.mem_filterMap.mpr ⟨p, hp, by rw [he]; rfl⟩)

theorem hostShop_fits_iff (hadv : advancedOf t room = some adv) :
    (∀ e ∈ hostShop t room, e.Fits) ↔ ∀ p ∈ stores room.blob, ∀ row, Placeable t p.1 row → row.Fits := by
  constructor
  · intro h p hp row hrow
    obtain ⟨e, he⟩ := hrow.entry p.2
    obtain ⟨row', hrow', hfits⟩ := shopEntry_inl he (stores_lt hp)
    obtain rfl := Option.some.inj (hrow.1.symm.trans hrow'.1)
    rw [hostShop_eq hadv] at h
    exact hfits.mp (h e (List.mem_filterMap.mpr ⟨p, hp, by rw [he]; rfl⟩))
  · intro h e he
    obtain ⟨p, hp, hentry⟩ := mem_hostShop he
    obtain ⟨row, hrow, hfits⟩ := shopEntry_inl hentry (stores_lt hp)
    exact hfits.mpr (h p hp row hrow)

theorem eventValue_nil {evId : Nat} (h : eventsOf t room.blob = []) {name : String}
    (hname : ECO_EVENT_KEY.lookup evId = some name) : eventValue t (ecos room.blob) evId = none := by
  rw [← lookup_events hname]
  unfold eventsOf at h
  rw [h]
  rfl

theorem hostEvents_fits_iff (hadv : advancedOf t room = some adv) :
    (∀ o ∈ hostEvents t room, EventsFit o) ↔
      ∀ f ∈ ECO_EVENT_KEY, inUint32 ((eventValue t (ecos room.blob) f.1).getD 0) := by
  rw [← eventsFit_iff]
  unfold hostEvents
  rw [hadv, Option.bind_some, advancedOf_some hadv, overlayOf]
  dsimp only
  split
  · rename_i hnil
    rw [hnil]
    exact ⟨fun _ => by decide, nofun⟩
  · exact ⟨fun h => h _ rfl, fun h o ho => Option.some.inj ho ▸ h⟩

-- The host's list is the catalogue exactly where it has an item that can be placed and the match
-- server can read what RoomStart wrote.
theorem allow_list_enforced (t : Sheets) (csShopItems : List ShopItem) (room : RoomRecord) {adv : Overlay}
    (hadv : advancedOf t room = some adv) :
    Enforced csShopItems (handedOver (startPayload t room).toJson) adv.shopItems ↔
      (∃ p ∈ stores room.blob, ∃ row, Placeable t p.1 row) ∧
        (∀ p ∈ stores room.blob, ∀ row, Placeable t p.1 row → row.Fits) ∧
          ∀ f ∈ ECO_EVENT_KEY, inUint32 ((eventValue t (ecos room.blob) f.1).getD 0) := by
  have hshop : adv.shopItems = hostShop t room := by
    unfold hostShop
    rw [hadv]
  rw [hshop, ← hostShop_ne_nil hadv, ← hostShop_fits_iff hadv, ← hostEvents_fits_iff hadv, ← startPayload_fits]
  unfold handedOver
  rw [wireSettings_toJson]
  by_cases hfits : (startPayload t room).Fits
  · have hitems : (startPayload t room).wire.shopItems = (hostShop t room).map ShopEntry.item := by
      rw [startPayload_eq]
      rfl
    rw [if_pos hfits]
    dsimp only [overlay]
    rw [hitems]
    by_cases hnil : hostShop t room = []
    · rw [hnil]
      exact ⟨fun h => absurd rfl h.1, fun h => absurd rfl h.1⟩
    · have hmap : (hostShop t room).map ShopEntry.item ≠ [] := by simpa using hnil
      rw [if_pos hmap]
      refine ⟨fun _ => ⟨hnil, hfits⟩, fun _ => ⟨Option.some_ne_none _, ?_⟩⟩
      exact forall₂_sells (startPayload_fits.mp hfits).1
  · rw [if_neg hfits]
    exact ⟨fun h => absurd rfl h.1, fun h => absurd h.2 hfits⟩

theorem advancedOf_advancedRoom {blob : List UInt8} (hlen : 3 ≤ blob.length) (hblob : blobLength blob ≤ blob.length) :
    advancedOf t (advancedRoom blob) = some (overlayOf t blob) := by
  have htext : Base64.padded Base64.standard blob ≠ [] := by
    intro h
    have hb := congrArg (Base64.decodeLenient Base64.standard) h
    rw [Base64.decodeLenient_padded rfl] at hb
    rw [hb] at hlen
    exact absurd hlen (by decide)
  unfold advancedOf
  rw [if_pos ⟨rfl, htext⟩, blob_advancedRoom, decodeAdvanced_eq, if_pos ⟨hlen, hblob⟩]

theorem allow_list_enforced_smoke :
    Enforced [] (handedOver (startPayload smokeSheets (advancedRoom smokeBlob)).toJson)
        (overlayOf smokeSheets smokeBlob).shopItems := by
  refine (allow_list_enforced smokeSheets [] (advancedRoom smokeBlob)
    (advancedOf_advancedRoom (by decide) (by decide))).mpr ⟨?_, fun p _ row hrow => ?_, fun f _ => ?_⟩
  · rw [blob_advancedRoom]
    exact ⟨(5, 22), by decide, ⟨33, 201, 1, 0, false⟩, rfl, by decide⟩
  · exact smokeSheets_fits.shop p.1 row hrow.1
  · exact eventValue_fits smokeSheets_fits f.1

-- A host who lists nothing gets the default catalogue.
theorem empty_list_falls_back :
    advancedOf smokeSheets (advancedRoom [0, 0, 0]) = some ⟨0, [], [], none, []⟩ ∧
      ∀ csShopItems, csShopItems ≠ [] →
        shopCatalogue csShopItems (handedOver (startPayload smokeSheets (advancedRoom [0, 0, 0])).toJson) =
            csShopItems ∧
          ¬Enforced csShopItems (handedOver (startPayload smokeSheets (advancedRoom [0, 0, 0])).toJson) [] := by
  have hadv : advancedOf smokeSheets (advancedRoom [0, 0, 0]) = some ⟨0, [], [], none, []⟩ :=
    advancedOf_advancedRoom (by decide) (by decide)
  have hnone : (handedOver (startPayload smokeSheets (advancedRoom [0, 0, 0])).toJson).shopItems = none := by
    unfold handedOver
    rw [wireSettings_toJson, if_pos (startPayload_fits_of smokeSheets_fits _), startPayload_eq]
    unfold hostShop
    rw [hadv]
    rfl
  refine ⟨hadv, fun csShopItems _ => ⟨?_, fun h => h.1 hnone⟩⟩
  unfold shopCatalogue
  rw [hnone, Option.getD_none]

-- A scale as the client reads it: absent, 1; otherwise a percentage.
def multiplier (scale : Nat) : Rat :=
  if scale = 0 then 1 else scale / 100

def bonus (events : CsEvents) (name : String) : Nat :=
  if name = "win_round" then events.winRound
  else if name = "per_kill" then events.perKill
  else if name = "loss_round" then events.lossRound
  else if name = "loss_streak2" then events.lossStreak2
  else if name = "loss_streak3" then events.lossStreak3
  else events.firstBlood

def hostEvent (t : Sheets) (room : RoomRecord) (evId : Nat) : Option Int :=
  if (advancedOf t room).isSome then eventValue t (ecos room.blob) evId else none

-- Every setting is what the host decided, and the default where the host left it.
structure Overlaid (t : Sheets) (room : RoomRecord) (s : MatchSettings) : Prop where
  rounds : s.maxRound = (hostRounds t room).getD maxRound
  hp : s.maxHP = (decodeRoomSettings room).maxHP.getD maxHP
  economy : s.baseCoins.map Int.ofNat = (hostEconomy t room).getD (csRoundBaseCoins.map Int.ofNat)
  speed : multiplier s.speedScale = ((decodeRoomSettings room).speedMul.map Decimal.toRat).getD 1
  jump : multiplier s.jumpScale = ((decodeRoomSettings room).jumpMul.map Decimal.toRat).getD 1
  events : ∀ f ∈ ECO_EVENT_KEY,
    (bonus s.events f.2 : Int) = (hostEvent t room f.1).getD (bonus defaultCSEvents f.2)

theorem multiplier_percentScale :
    (∀ d ∈ TABLES.playerSpeed.map Prod.snd, multiplier (percentScale d.toFloat) = d.toRat) ∧
      ∀ d ∈ TABLES.playerJump.map Prod.snd, multiplier (percentScale d.toFloat) = d.toRat := by
  decide +kernel

theorem eventsOf_nil (h : ∀ f ∈ ECO_EVENT_KEY, eventValue t (ecos room.blob) f.1 = none) :
    eventsOf t room.blob = [] := by
  have hnone : ∀ p ∈ ecos room.blob, ecoEvent t p.1 p.2 = none := by
    intro p hp
    unfold ecoEvent
    split
    · rename_i name row hkey hrow
      have hvalue := h _ (mem_of_lookup hkey)
      unfold eventValue at hvalue
      rw [hrow, Option.bind_eq_none_iff] at hvalue
      have hlast : lastStep (ecos room.blob) p.1 = none := by
        cases hl : lastStep (ecos room.blob) p.1 with
        | none => rfl
        | some step => exact absurd (hvalue step hl) (Option.some_ne_none _)
      unfold lastStep at hlast
      rw [Option.map_eq_none_iff, List.getLast?_eq_none_iff, List.filter_eq_nil_iff] at hlast
      exact absurd (decide_eq_true rfl) (hlast p hp)
    · rfl
  unfold eventsOf
  generalize ecos room.blob = pairs at hnone
  induction pairs with
  | nil => rfl
  | cons p pairs ih =>
    rw [List.foldl_cons, addEvent, hnone p List.mem_cons_self]
    exact ih fun q hq => hnone q (List.mem_cons_of_mem p hq)

theorem bonus_eventsIn {o : List (String × Int)} {f : Nat × String} (hf : f ∈ ECO_EVENT_KEY) :
    bonus (eventsIn o) f.2 = (coins o f.2).toNat := by
  revert f
  simp [ECO_EVENT_KEY, bonus, eventsIn]

theorem lookup_of_mem {f : Nat × String} (hf : f ∈ ECO_EVENT_KEY) : ECO_EVENT_KEY.lookup f.1 = some f.2 := by
  revert f
  decide

theorem bonus_default_pos {f : Nat × String} (hf : f ∈ ECO_EVENT_KEY) : 0 < bonus defaultCSEvents f.2 := by
  revert f
  decide

theorem events_kept_iff (ht : t.Fits) :
    (∀ f ∈ ECO_EVENT_KEY, (bonus (((hostEvents t room).map eventsIn).getD defaultCSEvents) f.2 : Int) =
        (hostEvent t room f.1).getD (bonus defaultCSEvents f.2)) ↔
      (∀ f ∈ ECO_EVENT_KEY, hostEvent t room f.1 = none) ∨
        ∀ f ∈ ECO_EVENT_KEY, hostEvent t room f.1 ≠ none := by
  cases ho : hostEvents t room with
  | none =>
    have hall : ∀ f ∈ ECO_EVENT_KEY, hostEvent t room f.1 = none := by
      intro f hf
      unfold hostEvent
      split
      · rename_i hsome
        obtain ⟨adv, hadv⟩ := Option.isSome_iff_exists.mp hsome
        unfold hostEvents at ho
        rw [hadv, Option.bind_some, advancedOf_some hadv, overlayOf] at ho
        dsimp only at ho
        split at ho
        · rename_i hnil
          exact eventValue_nil hnil (lookup_of_mem hf)
        · cases ho
      · rfl
    refine ⟨fun _ => Or.inl hall, fun _ f hf => ?_⟩
    rw [hall f hf]
    rfl
  | some o =>
    obtain ⟨adv, hadv, hadvo⟩ := Option.bind_eq_some_iff.mp ho
    have hevent : ∀ f, hostEvent t room f = eventValue t (ecos room.blob) f := by
      intro f
      unfold hostEvent
      rw [hadv]
      rfl
    have hsome : ¬∀ f ∈ ECO_EVENT_KEY, hostEvent t room f.1 = none := by
      intro hall
      have hnil := eventsOf_nil fun f hf => (hevent f.1).symm.trans (hall f hf)
      rw [advancedOf_some hadv, overlayOf] at hadvo
      dsimp only at hadvo
      rw [if_pos hnil] at hadvo
      cases hadvo
    have hpaid : ∀ f ∈ ECO_EVENT_KEY, (bonus (eventsIn o) f.2 : Int) = (hostEvent t room f.1).getD 0 := by
      intro f hf
      have hfits := @eventValue_fits t room ht f.1
      rw [bonus_eventsIn hf, hostEvents_some ho, coins_eventsOf f.1 (lookup_of_mem hf), hevent]
      exact Int.toNat_of_nonneg hfits.1
    rw [Option.map_some, Option.getD_some]
    constructor
    · intro h
      refine Or.inr fun f hf hnone => ?_
      have heq := h f hf
      rw [hpaid f hf, hnone, Option.getD_none, Option.getD_none] at heq
      have hpos := bonus_default_pos hf
      omega
    · intro h f hf
      rw [hpaid f hf]
      obtain ⟨v, hv⟩ := Option.ne_none_iff_exists'.mp ((h.resolve_left hsome) f hf)
      rw [hv]
      rfl

theorem fin_setting {bound : Nat} [NeZero bound] {x : Option Nat} (d : Nat)
    (hx : ∀ n, x = some n → 0 < n ∧ n < bound) :
    (if 0 < Fin.ofNat bound (x.getD 0) then (Fin.ofNat bound (x.getD 0)).val else d) = x.getD d := by
  cases x with
  | none => exact if_neg (Fin.not_lt_zero _)
  | some n =>
    obtain ⟨hpos, hlt⟩ := hx n rfl
    have hval : (Fin.ofNat bound n).val = n := Nat.mod_eq_of_lt hlt
    rw [Option.getD_some, Option.getD_some, if_pos, hval]
    rw [Fin.lt_def, hval]
    exact hpos

theorem economy_setting {x : Option (List Int)} (d : List Nat)
    (hx : ∀ l, x = some l → l ≠ [] ∧ ∀ c ∈ l, inUint32 c) :
    (if (x.getD []).map Int.toNat ≠ [] then (x.getD []).map Int.toNat else d).map Int.ofNat =
      x.getD (d.map Int.ofNat) := by
  cases x with
  | none => rfl
  | some l =>
    obtain ⟨hne, hl⟩ := hx l rfl
    rw [Option.getD_some, Option.getD_some, if_pos (by simpa using hne), map_toNat hl]

theorem scale_setting {x : Option Decimal} (hx : ∀ d, x = some d → multiplier (percentScale d.toFloat) = d.toRat) :
    multiplier (percentScale ((x.map Decimal.toFloat).getD 0)) = (x.map Decimal.toRat).getD 1 := by
  cases x with
  | none => decide +kernel
  | some d => exact hx d rfl

-- The host's settings are kept one by one exactly where the host set all six events, or none.
theorem settings_overlaid (t : Sheets) (ht : t.Fits) (room : RoomRecord) :
    Overlaid t room (handedOver (startPayload t room).toJson) ↔
      (∀ f ∈ ECO_EVENT_KEY, hostEvent t room f.1 = none) ∨
        ∀ f ∈ ECO_EVENT_KEY, hostEvent t room f.1 ≠ none := by
  rw [← events_kept_iff ht]
  have hfits := startPayload_fits_of ht room
  unfold handedOver
  rw [wireSettings_toJson, if_pos hfits, startPayload_eq]
  constructor
  · intro h
    exact h.events
  · intro h
    constructor
    · exact fin_setting maxRound fun n hn => hostRounds_range hn
    · exact fin_setting maxHP fun n hn => maxHP_range hn
    · exact economy_setting csRoundBaseCoins fun l hl => hostEconomy_range hl
    · exact scale_setting fun d hd => multiplier_percentScale.1 d (resolve_mem hd)
    · exact scale_setting fun d hd => multiplier_percentScale.2 d (resolve_mem hd)
    · exact h

theorem settings_overlaid_unset :
    Overlaid smokeSheets (advancedRoom [0, 0, 0])
      (handedOver (startPayload smokeSheets (advancedRoom [0, 0, 0])).toJson) :=
  (settings_overlaid smokeSheets smokeSheets_fits (advancedRoom [0, 0, 0])).mpr (Or.inl (by decide +kernel))

-- The bonus of a won round alone takes the other five bonuses away.
theorem one_bonus_clears_others :
    hostEvent smokeSheets (advancedRoom smokeBlob) 153 = none ∧
      (handedOver (startPayload smokeSheets (advancedRoom smokeBlob)).toJson).events = ⟨600, 0, 0, 0, 0, 0⟩ ∧
        ¬Overlaid smokeSheets (advancedRoom smokeBlob)
          (handedOver (startPayload smokeSheets (advancedRoom smokeBlob)).toJson) := by
  have hunset : hostEvent smokeSheets (advancedRoom smokeBlob) 153 = none := by decide +kernel
  have hevents : (handedOver (startPayload smokeSheets (advancedRoom smokeBlob)).toJson).events =
      ⟨600, 0, 0, 0, 0, 0⟩ := by
    unfold handedOver
    rw [wireSettings_toJson, if_pos (startPayload_fits_of smokeSheets_fits _)]
    decide +kernel
  refine ⟨hunset, hevents, fun h => ?_⟩
  have hkill := h.events (153, "per_kill") (by decide)
  rw [hevents, hunset] at hkill
  exact absurd hkill (by decide)

end Settings
