import Utos.Core.Context

namespace Utos.Core.RestoredMemory

open Core Exceptions Context

variable {T : Type} {repr : ℚ → String} {isoformat : T → String} {fromisoformat : String → Except Exn T} {now : T}
  {data : Data T}

/-- Decoding what was encoded gives the memory back and leaves the dict alone, so
that it can be decoded again. -/
def RestoresRepeatably (repr : ℚ → String) (isoformat : T → String) (fromisoformat : String → Except Exn T)
    (now : T) (m : ProcessMemory T) : Prop :=
  let data := toDict repr isoformat m
  let restored := fromDict fromisoformat now data
  restored.1 = .ok m ∧ restored.2 = data ∧ (fromDict fromisoformat now restored.2).1 = restored.1

theorem convertAll_append (cs cs' : List (String × (Value T → Except Exn (Value T)))) (data : Data T) :
    convertAll (cs ++ cs') data = match convertAll cs data with
      | (.ok _, data) => convertAll cs' data
      | (.error e, data) => (.error e, data) := by
  induction cs generalizing data with
  | nil => rfl
  | cons c cs ih =>
      simp only [List.cons_append, convertAll]
      cases convert c.1 c.2 data with
      | ok data => exact ih data
      | error e => rfl

theorem convert_get {key other : String} {f : Value T → Except Exn (Value T)} {data' : Data T}
    (h : convert key f data = .ok data') (hne : other ≠ key) : data'.get other = data.get other := by
  unfold convert at h
  split at h
  next => cases h; rfl
  next value _ =>
    split at h
    next => cases h; rfl
    next =>
      cases hf : f value with
      | error e => rw [hf] at h; cases h
      | ok converted =>
          rw [hf] at h
          cases h
          exact Dict.get_set_of_ne _ _ _ hne

theorem convertAll_get (cs : List (String × (Value T → Except Exn (Value T)))) {other : String} (data : Data T)
    (h : other ∉ cs.map Prod.fst) : (convertAll cs data).2.get other = data.get other := by
  induction cs generalizing data with
  | nil => rfl
  | cons c cs ih =>
      rw [List.map_cons, List.mem_cons, not_or] at h
      rw [convertAll]
      cases hc : convert c.1 c.2 data with
      | error e => rfl
      | ok data' => exact (ih data' h.2).trans (convert_get hc h.1)

/-- The conversions before that of last_updated. -/
def earlier (fromisoformat : String → Except Exn T) : List (String × (Value T → Except Exn (Value T))) :=
  (conversions fromisoformat).take 5

theorem fromDict_eq (fromisoformat : String → Except Exn T) (now : T) (data : Data T) :
    fromDict fromisoformat now data = match convertAll (earlier fromisoformat) data with
      | (.ok _, data) => match convert "last_updated" (datetimeOf fromisoformat) data with
        | .ok data => (construct now data, data)
        | .error e => (.error e, data)
      | (.error e, data) => (.error e, data) := by
  have hsplit : conversions fromisoformat = earlier fromisoformat ++ [("last_updated", datetimeOf fromisoformat)] :=
    rfl
  rw [fromDict, hsplit, convertAll_append]
  rcases convertAll (earlier fromisoformat) data with ⟨_ | _, data'⟩
  · rfl
  · simp only [convertAll]
    cases convert "last_updated" (datetimeOf fromisoformat) data' <;> rfl

theorem earlier_get (fromisoformat : String → Except Exn T) (data : Data T) :
    (convertAll (earlier fromisoformat) data).2.get "last_updated" = data.get "last_updated" :=
  convertAll_get _ data (by simp [earlier, conversions])

/-- What from_dict has decoded holds a datetime afterwards. -/
theorem fromDict_writes {m : ProcessMemory T} {value : Value T}
    (hget : data.get "last_updated" = some value) (hvalue : isNone value = false)
    (h : (fromDict fromisoformat now data).1 = .ok m) :
    ∃ t, (fromDict fromisoformat now data).2.get "last_updated" = some (.datetime t) := by
  have hearlier := earlier_get fromisoformat data
  rw [fromDict_eq] at h ⊢
  rcases hrun : convertAll (earlier fromisoformat) data with ⟨_ | _, data'⟩
  · rw [hrun] at h
    cases h
  · rw [hrun] at hearlier h
    simp only [convert, hearlier, hget, hvalue, Bool.false_eq_true, if_false] at h ⊢
    cases hv : datetimeOf fromisoformat value with
    | error e => rw [hv] at h; cases h
    | ok converted =>
        obtain ⟨t, rfl⟩ : ∃ t, converted = .datetime t := by
          unfold datetimeOf at hv
          split at hv
          next s =>
            cases hs : fromisoformat s with
            | error e => rw [hs] at hv; cases hv
            | ok t => rw [hs] at hv; cases hv; exact ⟨t, rfl⟩
          next => cases hv
        exact ⟨t, Dict.get_set_self _ _ _⟩

/-- A datetime is not decoded a second time. -/
theorem fromDict_raises {t : T} (hget : data.get "last_updated" = some (.datetime t)) (m : ProcessMemory T) :
    (fromDict fromisoformat now data).1 ≠ .ok m := by
  have hearlier := earlier_get fromisoformat data
  rw [fromDict_eq]
  rcases hrun : convertAll (earlier fromisoformat) data with ⟨_ | _, data'⟩
  · simp
  · rw [hrun] at hearlier
    simp [convert, hearlier, hget, isNone, datetimeOf, Except.map]

theorem toDict_last_updated (m : ProcessMemory T) :
    (toDict repr isoformat m).get "last_updated" = some (.json (.text (isoformat m.lastUpdated))) := rfl

/-- What to_dict wrote can be decoded once. -/
theorem restored_once {m m' : ProcessMemory T}
    (h : (fromDict fromisoformat now (toDict repr isoformat m)).1 = .ok m') (again : ProcessMemory T) :
    (fromDict fromisoformat now (fromDict fromisoformat now (toDict repr isoformat m)).2).1 ≠ .ok again := by
  obtain ⟨t, ht⟩ := fromDict_writes (toDict_last_updated m) rfl h
  exact fromDict_raises ht again

/-- The memory as it comes back from a dict: a price of zero is lost. -/
def restored (m : ProcessMemory T) : ProcessMemory T :=
  { m with currentPrice := m.currentPrice.filter (fun x => x ≠ 0) }

theorem convertAll_null {key : String} {f : Value T → Except Exn (Value T)} {value : Value T}
    {rest : List (String × (Value T → Except Exn (Value T)))} (hget : data.get key = some value)
    (hvalue : isNone value = true) : convertAll ((key, f) :: rest) data = convertAll rest data := by
  simp only [convertAll, convert, hget, hvalue, if_true]

theorem convertAll_value {key : String} {f : Value T → Except Exn (Value T)} {value converted : Value T}
    {rest : List (String × (Value T → Except Exn (Value T)))} (hget : data.get key = some value)
    (hvalue : isNone value = false) (hf : f value = .ok converted) :
    convertAll ((key, f) :: rest) data = convertAll rest (data.set key converted) := by
  simp only [convertAll, convert, hget, hvalue, Bool.false_eq_true, if_false, hf, Except.map]

theorem decimalOf_float (repr : ℚ → String) (x : ℚ) :
    decimalOf (T := T) (.json (Context.float repr x)) = .ok (.decimal x) := rfl

/-- The dict with an optional value decoded. -/
def setSome (key : String) (value : Option (Value T)) (data : Data T) : Data T :=
  match value with
  | none => data
  | some value => data.set key value

theorem setSome_get {key other : String} (value : Option (Value T)) (data : Data T) (hne : other ≠ key) :
    (setSome key value data).get other = data.get other := by
  cases value with
  | none => rfl
  | some value => exact Dict.get_set_of_ne _ _ _ hne

theorem convertAll_price (m : ProcessMemory T) (rest : List (String × (Value T → Except Exn (Value T)))) :
    convertAll (("current_price", decimalOf) :: rest) (toDict repr isoformat m) =
      convertAll rest (setSome "current_price" ((restored m).currentPrice.map .decimal) (toDict repr isoformat m)) := by
  have hget : (toDict repr isoformat m).get "current_price" = some _ := rfl
  cases hp : m.currentPrice with
  | none =>
      rw [hp] at hget
      rw [convertAll_null hget rfl, restored, hp]
      rfl
  | some x =>
      rw [hp] at hget
      by_cases hx : x = 0
      · simp only [hx, ne_eq, not_true_eq_false, if_false] at hget
        rw [convertAll_null hget rfl, restored, hp, hx]
        rfl
      · simp only [hx, ne_eq, not_false_eq_true, if_true] at hget
        have hfilter : (some x).filter (fun x => x ≠ 0) = some x := by
          rw [Option.filter_some, if_pos (by simpa using hx)]
        rw [convertAll_value hget rfl (decimalOf_float repr x), restored, hp, hfilter]
        rfl

theorem convertAll_lastPriceUpdate (repr : ℚ → String) (hiso : ∀ t, fromisoformat (isoformat t) = .ok t)
    (m : ProcessMemory T)
    (hsame : data.get "last_price_update" = (toDict repr isoformat m).get "last_price_update")
    (rest : List (String × (Value T → Except Exn (Value T)))) :
    convertAll (("last_price_update", datetimeOf fromisoformat) :: rest) data =
      convertAll rest (setSome "last_price_update" (m.lastPriceUpdate.map .datetime) data) := by
  have hwritten : (toDict repr isoformat m).get "last_price_update" = some _ := rfl
  have hget := hsame.trans hwritten
  cases ht : m.lastPriceUpdate with
  | none =>
      rw [ht] at hget
      rw [convertAll_null hget rfl]
      rfl
  | some t =>
      rw [ht] at hget
      have hdecode : datetimeOf fromisoformat (.json (.text (isoformat t))) = .ok (.datetime t) := by
        simp only [datetimeOf, hiso, Except.map]
      rw [convertAll_value hget rfl hdecode]
      rfl

/-- The dict after the conversions. -/
def decoded (repr : ℚ → String) (isoformat : T → String) (m : ProcessMemory T) : Data T :=
  let data := setSome "current_price" ((restored m).currentPrice.map .decimal) (toDict repr isoformat m)
  let data := data.set "unrealized_pnl" (.decimal m.unrealizedPnl)
  let data := data.set "total_profit" (.decimal m.totalProfit)
  let data := data.set "total_fees" (.decimal m.totalFees)
  (setSome "last_price_update" (m.lastPriceUpdate.map .datetime) data).set "last_updated" (.datetime m.lastUpdated)

theorem convertAll_toDict (hiso : ∀ t, fromisoformat (isoformat t) = .ok t) (m : ProcessMemory T) :
    convertAll (conversions fromisoformat) (toDict repr isoformat m) = (.ok (), decoded repr isoformat m) := by
  have hlast : datetimeOf fromisoformat (.json (.text (isoformat m.lastUpdated))) = .ok (.datetime m.lastUpdated) := by
    simp only [datetimeOf, hiso, Except.map]
  have hprice : ∀ key, key ≠ "current_price" →
      (setSome "current_price" ((restored m).currentPrice.map .decimal) (toDict repr isoformat m)).get key =
        (toDict repr isoformat m).get key := fun key hne => setSome_get _ _ hne
  rw [conversions, convertAll_price,
    convertAll_value ?_ rfl (decimalOf_float repr m.unrealizedPnl),
    convertAll_value ?_ rfl (decimalOf_float repr m.totalProfit),
    convertAll_value ?_ rfl (decimalOf_float repr m.totalFees),
    convertAll_lastPriceUpdate repr hiso m ?_, convertAll_value ?_ rfl hlast]
  · rfl
  · rw [setSome_get _ _ (by decide), Dict.get_set_of_ne _ _ _ (by decide), Dict.get_set_of_ne _ _ _ (by decide),
      Dict.get_set_of_ne _ _ _ (by decide), hprice _ (by decide)]
    rfl
  · rw [Dict.get_set_of_ne _ _ _ (by decide), Dict.get_set_of_ne _ _ _ (by decide),
      Dict.get_set_of_ne _ _ _ (by decide), hprice _ (by decide)]
  · rw [Dict.get_set_of_ne _ _ _ (by decide), Dict.get_set_of_ne _ _ _ (by decide), hprice _ (by decide)]
    rfl
  · rw [Dict.get_set_of_ne _ _ _ (by decide), hprice _ (by decide)]
    rfl
  · rw [hprice _ (by decide)]
    rfl

/-- The entries of a decoded dict, whatever its two optional fields hold. -/
def entriesOf (m : ProcessMemory T) (price update : Value T) : List (String × Value T) :=
  [("instance_id", .json (.text m.instanceId)), ("status", .json (.text m.status)), ("current_price", price),
   ("last_price_update", update), ("grid_state", .json m.gridState), ("current_position", .json m.currentPosition),
   ("unrealized_pnl", .decimal m.unrealizedPnl), ("active_orders", .json m.activeOrders),
   ("order_history", .json m.orderHistory), ("total_cycles", .json (.int m.totalCycles)),
   ("total_profit", .decimal m.totalProfit), ("total_fees", .decimal m.totalFees),
   ("risk_metrics", .json m.riskMetrics), ("strategy_state", .json m.strategyState),
   ("market_connected", .json (.bool m.marketConnected)), ("account_connected", .json (.bool m.accountConnected)),
   ("last_error", .json (Json.ofOptionalText m.lastError)), ("error_count", .json (.int m.errorCount)),
   ("last_updated", .datetime m.lastUpdated), ("version", .json (.int m.version))]

/-- null for a field without a value. -/
def optional {α : Type} (wrap : α → Value T) : Option α → Value T
  | none => .json .null
  | some x => wrap x

theorem asOptional_optional {α : Type} (wrap : α → Value T) (read : Value T → Except Exn α)
    (hread : ∀ x, read (wrap x) = .ok x) (hwrap : ∀ x, isNone (wrap x) = false) (value : Option α) :
    asOptional read (optional wrap value) = .ok value := by
  cases value with
  | none => rfl
  | some x => simp only [optional, asOptional, hwrap, hread, Bool.false_eq_true, if_false, Except.map]

theorem decoded_entries (m : ProcessMemory T) :
    (decoded repr isoformat m).entries =
      entriesOf m (optional .decimal (restored m).currentPrice) (optional .datetime m.lastPriceUpdate) := by
  obtain ⟨a, b, price, t, g, c, u, ao, oh, tc, tp, tf, rm, ss, mc, ac, le, ec, lu, v⟩ := m
  unfold decoded restored
  rcases price with _ | x
  · rcases t with _ | t <;> rfl
  · by_cases hx : x = 0
    · subst hx
      rcases t with _ | t <;> rfl
    · have hfilter : (some x).filter (fun x => x ≠ 0) = some x := by
        rw [Option.filter_some, if_pos (by simpa using hx)]
      simp only [hfilter]
      rcases t with _ | t <;> rfl

theorem construct_entriesOf {m : ProcessMemory T} {price update : Value T}
    (h : data.entries = entriesOf m price update) :
    construct now data = (asOptional asDecimal price).bind fun price =>
      (asOptional asDatetime update).bind fun update =>
        .ok { m with currentPrice := price, lastPriceUpdate := update } := by
  obtain ⟨entries, hnodup⟩ := data
  cases h
  obtain ⟨a, b, _, _, g, c, u, ao, oh, tc, tp, tf, rm, ss, mc, ac, le, ec, lu, v⟩ := m
  cases le <;> rfl

theorem construct_decoded (m : ProcessMemory T) :
    construct now (decoded repr isoformat m) = .ok (restored m) := by
  rw [construct_entriesOf (decoded_entries m), asOptional_optional .decimal asDecimal (fun _ => rfl) (fun _ => rfl),
    asOptional_optional .datetime asDatetime (fun _ => rfl) (fun _ => rfl)]
  rfl

theorem fromDict_toDict (hiso : ∀ t, fromisoformat (isoformat t) = .ok t) (m : ProcessMemory T) :
    (fromDict fromisoformat now (toDict repr isoformat m)).1 = .ok (restored m) := by
  rw [fromDict, convertAll_toDict hiso]
  exact construct_decoded m

theorem restored_iff (hiso : ∀ t, fromisoformat (isoformat t) = .ok t) (m : ProcessMemory T) :
    (fromDict fromisoformat now (toDict repr isoformat m)).1 = .ok m ↔ m.currentPrice ≠ some 0 := by
  rw [fromDict_toDict hiso, Except.ok.injEq]
  constructor
  · intro h hzero
    have hprice := congrArg ProcessMemory.currentPrice h
    simp [restored, hzero] at hprice
  · intro h
    have hfilter : m.currentPrice.filter (fun x => x ≠ 0) = m.currentPrice := by
      cases hp : m.currentPrice with
      | none => rfl
      | some x =>
          have hx : x ≠ 0 := fun hx => h (by rw [hp, hx])
          rw [Option.filter_some, if_pos (by simpa using hx)]
    rw [restored, hfilter]

/-- A dict that was decoded holds datetimes instead of texts, so no memory is
restored repeatably. -/
theorem not_restoresRepeatably (m : ProcessMemory T) :
    ¬ RestoresRepeatably repr isoformat fromisoformat now m := by
  rintro ⟨hok, hsame, -⟩
  obtain ⟨t, ht⟩ := fromDict_writes (toDict_last_updated m) rfl hok
  rw [hsame, toDict_last_updated] at ht
  cases ht

/-- A process that was just created. The datetimes are given by their texts. -/
def created : ProcessMemory String :=
  { instanceId := "inst-1", status := "created", lastUpdated := "2024-01-01T00:00:00" }

/-- The first call turns the text in the dict into a datetime, and the second one raises. -/
theorem created_not_restores :
    ¬ RestoresRepeatably toString id .ok "2024-01-02T00:00:00" created ∧
      (fromDict .ok "2024-01-02T00:00:00" (fromDict .ok "2024-01-02T00:00:00" (toDict toString id created)).2).1 =
        .error (.other "TypeError" "fromisoformat: argument must be str") := by
  refine ⟨?_, rfl⟩
  rintro ⟨-, -, h⟩
  cases h

end Utos.Core.RestoredMemory
