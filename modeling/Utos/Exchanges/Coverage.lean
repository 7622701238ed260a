import Utos.Exchanges.Signing

namespace Utos.Exchanges.Coverage

open Core Quote Join Signing
open JsonText (jsonString)
open OrderParams (Venue)

variable {x : Httpx} {a : Account} {params : Params} {items items' : Items}
variable {key key' : String → List Char} {value value' : Value → List Char}

theorem perm_sortedItems (items : Items) : (sortedItems items).Perm items := List.perm_insertionSort _ _

theorem pairwise_sortedItems (items : Items) : (sortedItems items).Pairwise (fun e e' => e.1 ≤ e'.1) := by
  have htrans : IsTrans (String × Value) (fun e e' => e.1 ≤ e'.1) := ⟨fun _ _ _ => le_trans⟩
  have htotal : Std.Total (fun e e' : String × Value => e.1 ≤ e'.1) := ⟨fun e e' => le_total e.1 e'.1⟩
  exact List.pairwise_insertionSort _ _

theorem sortedItems_of_pairwise (h : items.Pairwise (fun e e' => e.1 ≤ e'.1)) : sortedItems items = items :=
  h.insertionSort_eq

theorem eq_of_pairwise (hnodup : (items'.map Prod.fst).Nodup) (hperm : items.Perm items')
    (h : items.Pairwise (fun e e' => e.1 ≤ e'.1)) (h' : items'.Pairwise (fun e e' => e.1 ≤ e'.1)) : items = items' := by
  refine List.Perm.eq_of_pairwise (fun e e' he he' hle hge => ?_) h h' hperm
  exact List.inj_on_of_nodup_map hnodup (hperm.mem_iff.mp he) he' (le_antisymm hle hge)

theorem filter_sortedItems (hnodup : (items.map Prod.fst).Nodup) (p : String × Value → Bool) :
    (sortedItems items).filter p = sortedItems (items.filter p) := by
  have hfilter : ((items.filter p).map Prod.fst).Nodup := hnodup.sublist (List.filter_sublist.map Prod.fst)
  refine eq_of_pairwise ?_ ?_ ((pairwise_sortedItems items).filter _) (pairwise_sortedItems _)
  · exact ((perm_sortedItems _).map Prod.fst).nodup_iff.mpr hfilter
  · exact ((perm_sortedItems items).filter p).trans (perm_sortedItems _).symm

theorem filter_insertEntry (k : String) (v : Value) (items : Items) :
    (Dict.insertEntry k v items).filter (fun e => e.1 ≠ k) = items.filter (fun e => e.1 ≠ k) := by
  induction items with
  | nil => simp [Dict.insertEntry]
  | cons e items ih =>
      by_cases he : e.1 = k
      · simp [Dict.insertEntry, he]
      · simp only [Dict.insertEntry, he, if_false, List.filter_cons, ih]

/-- The text before the first separator. -/
theorem eq_of_append_cons {α : Type} {c : α} {k k' v v' : List α} (hk : c ∉ k) (hk' : c ∉ k')
    (h : k ++ c :: v = k' ++ c :: v') : k = k' := by
  induction k generalizing k' with
  | nil =>
      cases k' with
      | nil => rfl
      | cons d k' => exact absurd (List.mem_cons.mpr (Or.inl (List.cons.inj h).1)) hk'
  | cons d k ih =>
      cases k' with
      | nil => exact absurd (List.mem_cons.mpr (Or.inl (List.cons.inj h).1.symm)) hk
      | cons d' k' =>
          obtain ⟨hd, hrest⟩ := List.cons.inj h
          rw [hd, ih (fun hc => hk (List.mem_cons_of_mem _ hc)) (fun hc => hk' (List.mem_cons_of_mem _ hc)) hrest]

theorem isSignature_iff (hq : Quoting key) (k : String) (v : List Char) :
    isSignature (key k ++ '=' :: v) = true ↔ k = "signature" := by
  have hself : key "signature" = "signature".toList := hq.safe _ (List.all_eq_true.mp rfl)
  rw [isSignature, List.isPrefixOf_iff_prefix]
  constructor
  · rintro ⟨rest, hrest⟩
    have hsplit : key "signature" ++ '=' :: rest = key k ++ '=' :: v := by
      rw [hself, ← hrest]
      simp
    exact (hq.inj hq (eq_of_append_cons (hq.eq_notMem _) (hq.eq_notMem _) hsplit)).symm
  · rintro rfl
    exact ⟨v, by rw [hself]; simp⟩

theorem amp_notMem_piece (hq : Quoting key) (hv : ∀ v, '&' ∉ value v) :
    ∀ piece ∈ items.map (fun e => key e.1 ++ '=' :: value e.2), '&' ∉ piece := by
  intro piece hpiece hmem
  obtain ⟨e, -, rfl⟩ := List.mem_map.mp hpiece
  rcases List.mem_append.mp hmem with h | h
  · exact hq.amp_notMem _ h
  · rcases List.mem_cons.mp h with h | h
    · exact absurd h (by decide)
    · exact hv _ h

theorem removeSignature_joinPairs (hq : Quoting key) (hv : ∀ v, '&' ∉ value v) (hne : items ≠ []) :
    removeSignature (joinPairs key value items) =
      joinPairs key value (items.filter (fun e => e.1 ≠ "signature")) := by
  have hmap : items.map (fun e => key e.1 ++ '=' :: value e.2) ≠ [] := by simpa using hne
  have hpiece (e : String × Value) :
      (!isSignature (key e.1 ++ '=' :: value e.2)) = decide (e.1 ≠ "signature") := by
    rw [Bool.eq_iff_iff, Bool.not_eq_true', ← Bool.not_eq_true, isSignature_iff hq, decide_eq_true_iff]
  rw [removeSignature, joinPairs, List.splitOn_intercalate _ (amp_notMem_piece hq hv) hmap, List.filter_map, joinPairs]
  congr 2
  exact List.filter_congr (fun e _ => hpiece e)

theorem forall₂_of_map (key key' : String → List Char) (value value' : Value → List Char)
    (hk : ∀ s, '=' ∉ key' s) (hv : ∀ v, '=' ∉ value' v)
    (h : items.map (fun e => key e.1 ++ '=' :: value e.2) = items'.map (fun e => key' e.1 ++ '=' :: value' e.2)) :
    List.Forall₂ (fun e e' => key e.1 = key' e'.1 ∧ value e.2 = value' e'.2) items items' := by
  induction items generalizing items' with
  | nil => rw [List.map_eq_nil_iff.mp h.symm]; exact .nil
  | cons e items ih =>
      obtain ⟨e', rest, rfl, he, hrest⟩ := List.map_eq_cons_iff.mp h.symm
      exact .cons (pair_inj (hk _) (hv _) he.symm) (ih hrest.symm)

theorem map_of_joinPairs (hq : Quoting key) (hv : ∀ v, '&' ∉ value v) (hq' : Quoting key') (hv' : ∀ v, '&' ∉ value' v)
    (hne : items ≠ []) (hne' : items' ≠ []) (h : joinPairs key value items = joinPairs key' value' items') :
    items.map (fun e => key e.1 ++ '=' :: value e.2) = items'.map (fun e => key' e.1 ++ '=' :: value' e.2) := by
  have hsplit := congrArg (List.splitOn '&') h
  rwa [joinPairs, joinPairs, List.splitOn_intercalate _ (amp_notMem_piece hq hv) (by simpa using hne),
    List.splitOn_intercalate _ (amp_notMem_piece hq' hv') (by simpa using hne')] at hsplit

theorem map_eq_of_forall₂ {α β γ : Type} {f : α → γ} {g : β → γ} {l : List α} {l' : List β}
    (h : List.Forall₂ (fun a b => f a = g b) l l') : l.map f = l'.map g := by
  induction h with
  | nil => rfl
  | cons hab _ ih => rw [List.map_cons, List.map_cons, hab, ih]

theorem forall_of_forall₂_self {α : Type} {R : α → α → Prop} {l : List α} (h : List.Forall₂ R l l) : ∀ a ∈ l, R a a := by
  induction l with
  | nil => simp
  | cons a l ih =>
      obtain ⟨ha, hl⟩ := List.forall₂_cons.mp h
      rintro b hb
      rcases List.mem_cons.mp hb with rfl | hb
      · exact ha
      · exact ih hl b hb

/-- Items with the keys of the sorted items are in order. -/
theorem pairwise_of_keys (h : (sortedItems items).map Prod.fst = items.map Prod.fst) :
    items.Pairwise (fun e e' => e.1 ≤ e'.1) := by
  have hsorted := List.pairwise_map.mpr (pairwise_sortedItems items)
  rw [h] at hsorted
  exact List.pairwise_map.mp hsorted

theorem joinPairs_congr (key key' : String → List Char) (value value' : Value → List Char)
    (hk : ∀ e ∈ items, key e.1 = key' e.1) (hv : ∀ e ∈ items, value e.2 = value' e.2) :
    joinPairs key value items = joinPairs key' value' items := by
  unfold joinPairs
  congr 1
  exact List.map_congr_left (fun e he => by rw [hk e he, hv e he])

theorem get_eq_none_iff {key : String} : params.get key = none ↔ ∀ e ∈ params.entries, e.1 ≠ key := by
  constructor
  · rintro h e he rfl
    rw [Dict.get_of_mem he] at h
    cases h
  · intro h
    cases hget : params.get key with
    | none => rfl
    | some v => exact absurd rfl (h _ (Dict.mem_of_get hget))

/-- The items that are left without a signature are all items if they are as many. -/
theorem filter_eq_self_of_length (h : (params.entries.filter (fun e => e.1 ≠ "signature")).length = params.entries.length) :
    params.get "signature" = none := by
  rw [get_eq_none_iff]
  intro e he
  simpa using List.length_filter_eq_length_iff.mp h e he

theorem filter_of_get (h : params.get "signature" = none) :
    params.entries.filter (fun e => e.1 ≠ "signature") = params.entries :=
  List.filter_eq_self.mpr (fun e he => by simpa using get_eq_none_iff.mp h e he)

theorem filter_ne_nil (hother : ∃ e ∈ params.entries, e.1 ≠ "signature") : params.entries.filter (fun e => e.1 ≠ "signature") ≠ [] := by
  obtain ⟨e, he, hne⟩ := hother
  exact List.ne_nil_of_mem (List.mem_filter.mpr ⟨he, by simpa using hne⟩)

theorem post_covered (a : Account) (hother : ∃ e ∈ params.entries, e.1 ≠ "signature") :
    removeSignature (urlencode (sortedItems (signParams a params).2.entries)) = (signParams a params).1 ↔
      params.get "signature" = none := by
  have hv (v : Value) : '&' ∉ quotePlus v.str := quoting_quotePlus.amp_notMem _
  have hsigned : (sortedItems (signParams a params).2.entries).filter (fun e => e.1 ≠ "signature") =
      sortedItems (params.entries.filter (fun e => e.1 ≠ "signature")) := by
    rw [filter_sortedItems (signParams a params).2.nodup, signParams, Dict.set, filter_insertEntry]
  have hentries : sortedItems (signParams a params).2.entries ≠ [] := by
    intro hnil
    rw [hnil] at hsigned
    have hperm := perm_sortedItems (params.entries.filter (fun e => e.1 ≠ "signature"))
    rw [← hsigned] at hperm
    exact filter_ne_nil hother hperm.symm.eq_nil
  rw [urlencode, removeSignature_joinPairs quoting_quotePlus hv hentries, hsigned]
  constructor
  · intro h
    have hmap := map_of_joinPairs quoting_quotePlus hv quoting_quotePlus hv ?_ ?_ h
    · have hlen := congrArg List.length hmap
      rw [List.length_map, List.length_map, (perm_sortedItems _).length_eq, (perm_sortedItems _).length_eq] at hlen
      exact filter_eq_self_of_length hlen
    · exact fun hnil => filter_ne_nil hother (hnil ▸ perm_sortedItems _).symm.eq_nil
    · obtain ⟨e, he, -⟩ := hother
      exact List.ne_nil_of_mem ((perm_sortedItems _).mem_iff.mpr he)
  · intro h
    rw [filter_of_get h]
    rfl

theorem query_covered (hx : x.Documented) (a : Account) (hother : ∃ e ∈ params.entries, e.1 ≠ "signature") :
    removeSignature (x.query (signParams a params).2) = (signParams a params).1 ↔
      params.get "signature" = none ∧ params.entries.Pairwise (fun e e' => e.1 ≤ e'.1) ∧
        ∀ e ∈ params.entries, x.quote e.1 = quotePlus e.1 ∧ x.quote e.2.queryText = quotePlus e.2.str := by
  have hv (v : Value) : '&' ∉ x.quote v.queryText := hx.quoting.amp_notMem _
  have hv' (v : Value) : '&' ∉ quotePlus v.str := quoting_quotePlus.amp_notMem _
  have heq (v : Value) : '=' ∉ quotePlus v.str := quoting_quotePlus.eq_notMem _
  have hsigned : (signParams a params).2.entries.filter (fun e => e.1 ≠ "signature") =
      params.entries.filter (fun e => e.1 ≠ "signature") := by
    rw [signParams, Dict.set, filter_insertEntry]
  have hentries : (signParams a params).2.entries ≠ [] := by
    intro hnil
    rw [hnil] at hsigned
    exact filter_ne_nil hother hsigned.symm
  have hsorted : sortedItems params.entries ≠ [] := by
    obtain ⟨e, he, -⟩ := hother
    exact List.ne_nil_of_mem ((perm_sortedItems _).mem_iff.mpr he)
  rw [hx.query, removeSignature_joinPairs hx.quoting hv hentries, hsigned]
  constructor
  · intro h
    have hmap := map_of_joinPairs hx.quoting hv quoting_quotePlus hv' (filter_ne_nil hother) hsorted h
    have hlen := congrArg List.length hmap
    rw [List.length_map, List.length_map, (perm_sortedItems _).length_eq] at hlen
    have hnone := filter_eq_self_of_length hlen
    rw [filter_of_get hnone] at hmap
    have hpairs : List.Forall₂ (fun e e' => x.quote e.1 = quotePlus e'.1 ∧ x.quote e.2.queryText = quotePlus e'.2.str)
        params.entries (sortedItems params.entries) :=
      forall₂_of_map x.quote quotePlus (fun v => x.quote v.queryText) (fun v => quotePlus v.str)
        quoting_quotePlus.eq_notMem heq hmap
    have hkeys : params.entries.map Prod.fst = (sortedItems params.entries).map Prod.fst :=
      map_eq_of_forall₂ (hpairs.imp (fun _ _ he => hx.quoting.inj quoting_quotePlus he.1))
    have horder := pairwise_of_keys hkeys.symm
    rw [sortedItems_of_pairwise horder] at hpairs
    exact ⟨hnone, horder, forall_of_forall₂_self hpairs⟩
  · rintro ⟨hnone, horder, htexts⟩
    rw [filter_of_get hnone, signParams, sortedItems_of_pairwise horder, urlencode]
    exact joinPairs_congr x.quote quotePlus (fun v => x.quote v.queryText) (fun v => quotePlus v.str)
      (fun e he => (htexts e he).1) (fun e he => (htexts e he).2)

theorem eq_of_sum_eq {α : Type} {f g : α → Nat} {l : List α} (hle : ∀ a ∈ l, f a ≤ g a)
    (h : (l.map g).sum = (l.map f).sum) : ∀ a ∈ l, g a ≤ f a := by
  induction l with
  | nil => simp
  | cons a l ih =>
      have ha := hle a List.mem_cons_self
      have hl : (l.map f).sum ≤ (l.map g).sum :=
        List.sum_le_sum (fun b hb => hle b (List.mem_cons_of_mem _ hb))
      simp only [List.map_cons, List.sum_cons] at h
      intro b hb
      rcases List.mem_cons.mp hb with rfl | hb
      · omega
      · exact ih (fun b hb => hle b (List.mem_cons_of_mem _ hb)) (by omega) b hb

/-- Keys of which the sorted ones are the quoted ones are not changed by quoting:
quoting makes none of them shorter, and together they are as long as before. -/
theorem keys_of_plain {q : String → List Char} (hq : Quoting q) {keys sorted : List String} (hperm : sorted.Perm keys)
    (h : sorted.map String.toList = keys.map q) : ∀ k ∈ keys, q k = k.toList := by
  have hquoted : ∀ k ∈ keys, ∀ c ∈ k.toList, isQuoted c = true := by
    intro k hk c hc
    have hmem : k.toList ∈ keys.map q := h ▸ List.mem_map_of_mem (hperm.mem_iff.mpr hk)
    obtain ⟨k', -, hk'⟩ := List.mem_map.mp hmem
    exact hq.quoted k' c (hk' ▸ hc)
  have hsum : (keys.map (fun k => (q k).length)).sum = (keys.map (fun k => k.toList.length)).sum := by
    have hlengths := congrArg (fun l => (l.map List.length).sum) h
    simp only [List.map_map] at hlengths
    exact hlengths.symm.trans (hperm.map _).sum_eq
  intro k hk
  exact hq.eq_of_length (hquoted k hk) (eq_of_sum_eq (fun k hk => hq.length_le (hquoted k hk)) hsum k hk)

theorem plain_covered (hx : x.Documented) :
    x.query params = plainQuery params ↔ params.entries.Pairwise (fun e e' => e.1 ≤ e'.1) ∧
      ∀ e ∈ params.entries, x.quote e.1 = e.1.toList ∧ x.quote e.2.queryText = e.2.str.toList := by
  rw [hx.query, plainQuery]
  constructor
  · intro h
    have hv (v : Value) : '&' ∉ x.quote v.queryText := hx.quoting.amp_notMem _
    have heq (v : Value) : '=' ∉ x.quote v.queryText := hx.quoting.eq_notMem _
    have hlen : (sortedItems params.entries).length = params.entries.length := (perm_sortedItems _).length_eq
    have hmap := intercalate_inj (amp_notMem_piece hx.quoting hv) (by rw [List.length_map, List.length_map, hlen]) h.symm
    have hpairs : List.Forall₂ (fun e e' => e.1.toList = x.quote e'.1 ∧ e.2.str.toList = x.quote e'.2.queryText)
        (sortedItems params.entries) params.entries :=
      forall₂_of_map String.toList x.quote (fun v => v.str.toList) (fun v => x.quote v.queryText) hx.quoting.eq_notMem
        heq hmap
    have htexts := map_eq_of_forall₂ (hpairs.imp (fun _ _ he => he.1))
    have hkeys := keys_of_plain hx.quoting ((perm_sortedItems params.entries).map Prod.fst)
      (by rw [List.map_map, List.map_map]; exact htexts)
    have hplain : (sortedItems params.entries).map Prod.fst = params.entries.map Prod.fst := by
      have hlists : ((sortedItems params.entries).map Prod.fst).map String.toList =
          (params.entries.map Prod.fst).map String.toList := by
        rw [← List.map_congr_left hkeys, List.map_map, List.map_map]
        exact htexts
      exact List.map_injective_iff.mpr (fun _ _ heq => String.toList_injective heq) hlists
    have horder := pairwise_of_keys hplain
    rw [sortedItems_of_pairwise horder] at hpairs
    have hboth := forall_of_forall₂_self hpairs
    exact ⟨horder, fun e he => ⟨(hboth e he).1.symm, (hboth e he).2.symm⟩⟩
  · rintro ⟨horder, htexts⟩
    rw [sortedItems_of_pairwise horder]
    exact joinPairs_congr x.quote String.toList (fun v => x.quote v.queryText) (fun v => v.str.toList)
      (fun e he => (htexts e he).1) (fun e he => (htexts e he).2)

theorem length_dumps (itemSeparator keySeparator : String) (items : Items) :
    (dumps itemSeparator keySeparator items).length =
      (items.map (fun e => (jsonString e.1).length + e.2.json.length)).sum + keySeparator.length * items.length +
        itemSeparator.length * (items.length - 1) + 2 := by
  have hlen (e : String × Value) : (jsonString e.1 ++ keySeparator.toList ++ e.2.json).length =
      (jsonString e.1).length + e.2.json.length + keySeparator.length := by
    simp only [List.length_append, String.length_toList]
    ring
  have hpieces : (items.map (fun e => jsonString e.1 ++ keySeparator.toList ++ e.2.json)).map List.length =
      items.map (fun e => (jsonString e.1).length + e.2.json.length + keySeparator.length) := by
    rw [List.map_map]
    exact List.map_congr_left (fun e _ => hlen e)
  have hsum : (items.map (fun e => (jsonString e.1).length + e.2.json.length + keySeparator.length)).sum =
      (items.map (fun e => (jsonString e.1).length + e.2.json.length)).sum + keySeparator.length * items.length := by
    rw [List.sum_map_add, List.map_const', List.sum_replicate_nat, mul_comm]
  simp only [dumps, List.length_append, List.length_cons, List.length_nil, length_intercalate, hpieces, hsum,
    List.length_map, String.length_toList]

/-- The compact JSON that is signed is shorter than the JSON that is sent, unless there is nothing in it. -/
theorem json_covered (items : Items) : dumps ", " ": " items = dumps "," ":" (sortedItems items) ↔ items = [] := by
  constructor
  · intro h
    have hlen := congrArg List.length h
    have hsum := ((perm_sortedItems items).map (fun e => (jsonString e.1).length + e.2.json.length)).sum_eq
    rw [length_dumps, length_dumps, hsum, (perm_sortedItems items).length_eq] at hlen
    have hlengths : ", ".length = 2 ∧ ": ".length = 2 ∧ ",".length = 1 ∧ ":".length = 1 := by decide
    rw [hlengths.1, hlengths.2.1, hlengths.2.2.1, hlengths.2.2.2] at hlen
    exact List.length_eq_zero_iff.mp (by omega)
  · rintro rfl
    rfl

/-- The params that are signed and sent, the signature apart. -/
def stamped (a : Account) (params : Params) : Venue → Params
  | .binance => setTimestamp a (setRecvWindow a params)
  | .mexc => setRecvWindow a (setTimestamp a params)
  | _ => params

def Stamps (venue : Venue) : Prop := venue = .binance ∨ venue = .mexc

theorem keys_set (key : String) (v : Value) :
    (params.set key v).entries.map Prod.fst = addKey key (params.entries.map Prod.fst) :=
  Dict.keys_insertEntry key v params.entries

theorem keys_stamped (a : Account) (params : Params) (venue : Venue) :
    (stamped a params venue).entries.map Prod.fst = sentKeys venue params := by
  cases venue <;> simp only [stamped, setTimestamp, setRecvWindow, keys_set, sentKeys]

theorem inOrder_iff (a : Account) (params : Params) (venue : Venue) :
    (stamped a params venue).entries.Pairwise (fun e e' => e.1 ≤ e'.1) ↔ InOrder venue params := by
  rw [InOrder, ← keys_stamped a, List.pairwise_map]

theorem get_stamped {venue : Venue} (h : Stamps venue) (key : String) : (stamped a params venue).get key =
    if key = "timestamp" then some (.int a.timestamp)
    else if key = "recvWindow" then some ((params.get "recvWindow").getD (.int a.recvWindow))
    else params.get key := by
  have hrecv : ("recvWindow" : String) ≠ "timestamp" := by decide
  rcases h with rfl | rfl
  · simp only [stamped, setTimestamp, setRecvWindow, Dict.get_set]
  · simp only [stamped, setTimestamp, setRecvWindow, Dict.get_set, if_neg hrecv]
    by_cases hkey : key = "recvWindow"
    · rw [if_pos hkey, if_neg (fun ht => hrecv (hkey.symm.trans ht)), if_pos hkey]
    · rw [if_neg hkey, if_neg hkey]

theorem recvWindow_mem {venue : Venue} (h : Stamps venue) :
    ∃ e ∈ (stamped a params venue).entries, e.1 ≠ "signature" := by
  have hget : (stamped a params venue).get "recvWindow" =
      some ((params.get "recvWindow").getD (.int a.recvWindow)) := by
    rw [get_stamped h, if_neg (by decide), if_pos rfl]
  exact ⟨_, Dict.mem_of_get hget, show ("recvWindow" : String) ≠ "signature" by decide⟩

theorem signature_stamped {venue : Venue} (h : Stamps venue) :
    (stamped a params venue).get "signature" = params.get "signature" := by
  rw [get_stamped h, if_neg (by decide), if_neg (by decide)]

theorem isSafe_toString (n : Int) : ∀ c ∈ (toString n).toList, isSafe c = true := by
  intro c hc
  rw [JsonText.toList_toString] at hc
  rcases List.mem_append.mp hc with hc | hc
  · split at hc
    · cases hc
    · rw [List.mem_singleton.mp hc]
      decide
  · have hdigit : '0' ≤ c ∧ c ≤ '9' := by
      simpa [Char.isDigit, Char.le_def] using Nat.isDigit_of_mem_toDigits (by decide) (by decide) hc
    simp [isSafe, hdigit]

theorem quote_int (hx : x.Documented) (n : Int) :
    x.quote (Value.int n).queryText = quotePlus (Value.int n).str :=
  (hx.quoting.safe _ (isSafe_toString n)).trans (quoting_quotePlus.safe _ (isSafe_toString n)).symm

theorem quote_safe (hx : x.Documented) {key : String} (h : ∀ c ∈ key.toList, isSafe c = true) :
    x.quote key = quotePlus key :=
  (hx.quoting.safe _ h).trans (quoting_quotePlus.safe _ h).symm

theorem queryMatches_iff (hx : x.Documented) {venue : Venue} (h : Stamps venue) :
    ((stamped a params venue).get "signature" = none ∧
      (stamped a params venue).entries.Pairwise (fun e e' => e.1 ≤ e'.1) ∧
      ∀ e ∈ (stamped a params venue).entries,
        x.quote e.1 = quotePlus e.1 ∧ x.quote e.2.queryText = quotePlus e.2.str) ↔ QueryMatches x venue params := by
  rw [signature_stamped h, inOrder_iff]
  constructor
  · rintro ⟨hunsigned, horder, htexts⟩
    refine ⟨hunsigned, horder, fun e he => ?_, fun e he htimestamp => ?_⟩
    · have hget := Dict.get_of_mem he
      by_cases ht : e.1 = "timestamp"
      · rw [ht]
        exact quote_safe hx (List.all_eq_true.mp rfl)
      by_cases hr : e.1 = "recvWindow"
      · rw [hr]
        exact quote_safe hx (List.all_eq_true.mp rfl)
      · exact (htexts e (Dict.mem_of_get (by rw [get_stamped h, if_neg ht, if_neg hr, hget]))).1
    · have hget := Dict.get_of_mem he
      refine (htexts e (Dict.mem_of_get ?_)).2
      rw [get_stamped h, if_neg htimestamp]
      by_cases hr : e.1 = "recvWindow"
      · rw [if_pos hr, ← hr, hget, Option.getD_some]
      · rw [if_neg hr, hget]
  · rintro ⟨hunsigned, horder, hkeys, hvalues⟩
    refine ⟨hunsigned, horder, fun e he => ?_⟩
    have hget := Dict.get_of_mem he
    rw [get_stamped h] at hget
    by_cases ht : e.1 = "timestamp"
    · rw [if_pos ht, Option.some.injEq] at hget
      rw [ht, ← hget]
      exact ⟨quote_safe hx (List.all_eq_true.mp rfl), quote_int hx _⟩
    rw [if_neg ht] at hget
    by_cases hr : e.1 = "recvWindow"
    · rw [if_pos hr, Option.some.injEq] at hget
      refine ⟨by rw [hr]; exact quote_safe hx (List.all_eq_true.mp rfl), ?_⟩
      cases hrecv : params.get "recvWindow" with
      | none =>
          rw [← hget, hrecv]
          exact quote_int hx _
      | some v =>
          rw [← hget, hrecv, Option.getD_some]
          exact hvalues _ (Dict.mem_of_get hrecv) (show ("recvWindow" : String) ≠ "timestamp" by decide)
    · rw [if_neg hr] at hget
      exact ⟨hkeys _ (Dict.mem_of_get hget), hvalues _ (Dict.mem_of_get hget) ht⟩

theorem covered_ok {venue : Venue} {method : Method} {sent : Sent}
    (h : signedRequest venue x a method params = .ok sent) :
    Covered venue x a method params ↔ unsigned venue sent.wire = sent.signed := by
  refine ⟨fun hall => hall sent h, fun heq sent' hsent => ?_⟩
  rw [h] at hsent
  cases hsent
  exact heq

theorem covered_error {venue : Venue} {method : Method} {e : Exceptions.Exn}
    (h : signedRequest venue x a method params = .error e) : Covered venue x a method params := by
  intro sent hsent
  rw [h] at hsent
  cases hsent

theorem ensureAuthenticated_ok (hkey : a.apiKey ≠ "") (label : String) : ensureAuthenticated a label = .ok () :=
  if_neg hkey

theorem signedRequest_stamps (hkey : a.apiKey ≠ "") {venue : Venue} (h : Stamps venue) (method : Method) :
    signedRequest venue x a method params = sendSigned x method (signParams a (stamped a params venue)) := by
  rcases h with rfl | rfl
  · rw [signedRequest, Binance.signedRequest, ensureAuthenticated_ok hkey]
    rfl
  · rw [signedRequest, MEXC.signedRequest, ensureAuthenticated_ok hkey]
    rfl

theorem unsigned_stamps {venue : Venue} (h : Stamps venue) (wire : List Char) :
    unsigned venue wire = removeSignature wire := by
  rcases h with rfl | rfl <;> rfl

/-- The adapters of Binance and MEXC: a POST always sends the items in the order in
which they are signed, a query in the order in which they came. -/
theorem covered_stamps (params : Params) (hx : x.Documented) (hkey : a.apiKey ≠ "") {venue : Venue} (h : Stamps venue) :
    (Covered venue x a .post params ↔ params.get "signature" = none) ∧
      (∀ method, method = .get ∨ method = .delete → (Covered venue x a method params ↔ QueryMatches x venue params)) ∧
      ∀ name, Covered venue x a (.other name) params := by
  refine ⟨?_, ?_, fun name => covered_error (signedRequest_stamps hkey h (.other name))⟩
  · rw [covered_ok (signedRequest_stamps hkey h .post), unsigned_stamps h, post_covered a (recvWindow_mem h),
      signature_stamped h]
  · rintro method (rfl | rfl)
    · rw [covered_ok (signedRequest_stamps hkey h .get), unsigned_stamps h, query_covered hx a (recvWindow_mem h),
        queryMatches_iff hx h]
    · rw [covered_ok (signedRequest_stamps hkey h .delete), unsigned_stamps h,
        query_covered hx a (recvWindow_mem h), queryMatches_iff hx h]

theorem plainQueryMatches_iff (hx : x.Documented) {venue : Venue} (h : venue = .bybit ∨ venue = .okx) :
    x.query params = plainQuery params ↔ PlainQueryMatches x venue params := by
  have horder : params.entries.Pairwise (fun e e' => e.1 ≤ e'.1) ↔ InOrder venue params := by
    rcases h with rfl | rfl
    · exact inOrder_iff ⟨"", 0, 0, fun _ => ""⟩ params .bybit
    · exact inOrder_iff ⟨"", 0, 0, fun _ => ""⟩ params .okx
  rw [plain_covered hx, horder]
  exact ⟨fun ⟨ho, ht⟩ => ⟨ho, fun e he => (ht e he).1, fun e he => (ht e he).2⟩,
    fun ⟨ho, hk, hv⟩ => ⟨ho, fun e he => ⟨hk e he, hv e he⟩⟩⟩

theorem covered_bybit (params : Params) (hx : x.Documented) (hkey : a.apiKey ≠ "") :
    (Covered .bybit x a .get params ↔ PlainQueryMatches x .bybit params) ∧
      (Covered .bybit x a .post params ↔ params.entries = []) ∧
      ∀ method, method ≠ .get → method ≠ .post → Covered .bybit x a method params := by
  have hok := ensureAuthenticated_ok hkey "Bybit"
  refine ⟨?_, ?_, fun method hget hpost => ?_⟩
  · have hsent : signedRequest .bybit x a .get params = .ok ⟨plainQuery params, x.query params⟩ := by
      rw [signedRequest, Bybit.signedRequest, hok]
      rfl
    exact (covered_ok hsent).trans (plainQueryMatches_iff hx (.inl rfl))
  · have hsent : signedRequest .bybit x a .post params =
        .ok ⟨dumps "," ":" (sortedItems params.entries), x.json params⟩ := by
      rw [signedRequest, Bybit.signedRequest, hok]
      rfl
    rw [covered_ok hsent, unsigned, id, hx.json, json_covered]
  · have hsent : signedRequest .bybit x a method params = .error (unsupported method) := by
      rw [signedRequest]
      unfold Bybit.signedRequest
      rw [hok]
      cases method <;> first | rfl | contradiction
    exact covered_error hsent

theorem covered_okx (params : Params) (hx : x.Documented) (hkey : a.apiKey ≠ "") :
    (Covered .okx x a .get params ↔ PlainQueryMatches x .okx params) ∧
      ∀ method, method ≠ .get → Covered .okx x a method params := by
  have hok := ensureAuthenticated_ok hkey "OKX"
  refine ⟨?_, fun method hget => ?_⟩
  · have hsent : signedRequest .okx x a .get params = .ok ⟨plainQuery params, x.query params⟩ := by
      rw [signedRequest, OKX.signedRequest, hok]
      rfl
    exact (covered_ok hsent).trans (plainQueryMatches_iff hx (.inr rfl))
  · by_cases hpost : method = .post
    · have hsent : signedRequest .okx x a method params =
          .ok ⟨dumps "," ":" params.entries, dumps "," ":" params.entries⟩ := by
        rw [hpost, signedRequest, OKX.signedRequest, hok]
        rfl
      exact (covered_ok hsent).mpr rfl
    · have hsent : signedRequest .okx x a method params = .error (unsupported method) := by
        rw [signedRequest]
        unfold OKX.signedRequest
        rw [hok]
        cases method <;> first | rfl | contradiction
      exact covered_error hsent

/-- A request sends what it signs in exactly the cases of Condition. -/
theorem covered_iff (hx : x.Documented) (hkey : a.apiKey ≠ "") (venue : Venue) (method : Method) (params : Params) :
    Covered venue x a method params ↔ Condition x params venue method := by
  cases venue with
  | binance =>
      obtain ⟨hpost, hquery, hother⟩ :=
        covered_stamps params hx hkey (show Stamps .binance from .inl rfl)
      cases method with
      | get => exact hquery _ (.inl rfl)
      | post => exact hpost
      | delete => exact hquery _ (.inr rfl)
      | other name => exact iff_of_true (hother name) trivial
  | bybit =>
      obtain ⟨hget, hpost, hother⟩ := covered_bybit params hx hkey
      cases method with
      | get => exact hget
      | post => exact hpost
      | delete => exact iff_of_true (hother _ (by simp) (by simp)) trivial
      | other name => exact iff_of_true (hother _ (by simp) (by simp)) trivial
  | okx =>
      obtain ⟨hget, hother⟩ := covered_okx params hx hkey
      cases method with
      | get => exact hget
      | post => exact iff_of_true (hother _ (by simp)) trivial
      | delete => exact iff_of_true (hother _ (by simp)) trivial
      | other name => exact iff_of_true (hother _ (by simp)) trivial
  | mexc =>
      obtain ⟨hpost, hquery, hother⟩ :=
        covered_stamps params hx hkey (show Stamps .mexc from .inr rfl)
      cases method with
      | get => exact hquery _ (.inl rfl)
      | post => exact hpost
      | delete => exact hquery _ (.inr rfl)
      | other name => exact iff_of_true (hother name) trivial

/-- httpx with %20 for a blank. -/
def browserHttpx : Httpx where
  quote := percentEncode
  query params := joinPairs percentEncode (fun v => percentEncode v.queryText) params.entries
  json params := dumps ", " ": " params.entries

theorem documented_browserHttpx : browserHttpx.Documented := ⟨quoting_percentEncode, fun _ => rfl, fun _ => rfl⟩

def testAccount : Account where
  apiKey := "key"
  recvWindow := 5000
  timestamp := 1700000000000
  sign _ := "signature"

def oneParam (key value : String) : Params := (∅ : Params).set key (.text value)

theorem covered_wallet_balance : Covered .bybit browserHttpx testAccount .get (oneParam "accountType" "UNIFIED") := by
  refine (covered_iff documented_browserHttpx (by decide) _ _ _).mpr ⟨by unfold InOrder; decide +kernel, ?_, ?_⟩
  · decide +kernel
  · decide +kernel

/-- The signature of an order query of Binance and of an order of Bybit is over another text than what is sent. -/
theorem signed_text_not_sent :
    ¬ Covered .binance browserHttpx testAccount .get (oneParam "symbol" "BTCUSDT") ∧
    ¬ Covered .mexc browserHttpx testAccount .delete (oneParam "symbol" "BTCUSDT") ∧
    ¬ Covered .bybit browserHttpx testAccount .post (oneParam "symbol" "BTCUSDT") := by
  have horder : ¬ InOrder .binance (oneParam "symbol" "BTCUSDT") ∧ ¬ InOrder .mexc (oneParam "symbol" "BTCUSDT") := by
    unfold InOrder
    decide +kernel
  have hkey : testAccount.apiKey ≠ "" := by decide
  refine ⟨fun hcovered => ?_, fun hcovered => ?_, fun hcovered => ?_⟩
  · obtain ⟨-, hquery, -⟩ := covered_stamps (oneParam "symbol" "BTCUSDT") documented_browserHttpx hkey (.inl rfl)
    exact horder.1 ((hquery .get (.inl rfl)).mp hcovered).inOrder
  · obtain ⟨-, hquery, -⟩ := covered_stamps (oneParam "symbol" "BTCUSDT") documented_browserHttpx hkey (.inr rfl)
    exact horder.2 ((hquery .delete (.inr rfl)).mp hcovered).inOrder
  · obtain ⟨-, hpost, -⟩ := covered_bybit (oneParam "symbol" "BTCUSDT") documented_browserHttpx hkey
    exact List.cons_ne_nil _ _ (hpost.mp hcovered)

end Utos.Exchanges.Coverage
