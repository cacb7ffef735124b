import IndexAccess.Entries
import Mathlib.Data.Finset.Card
import Mathlib.Data.List.Induction

/-!
# Keys and values after a sequence of puts

Whatever is put, every key stands once, and every entry is one that was put.
Entries whose keys are all different are left as they are.

A sequence of puts leaves its keys in the order in which they first appear in
it, each with the value that was put last.
-/

namespace IndexAccess
namespace Entries

variable {κ α : Type} [BEq κ] [LawfulBEq κ]

theorem mem_of_mem_put {key k : κ} {value v : α} {entries : List (κ × α)}
    (h : (k, v) ∈ put key value entries) :
    (k, v) ∈ entries ∨ (k = key ∧ v = value) := by
  induction entries with
  | nil =>
      rw [put, List.mem_singleton, Prod.mk.injEq] at h
      exact .inr h
  | cons entry rest ih =>
      obtain ⟨k', v'⟩ := entry
      by_cases heq : k' = key
      · subst heq
        simp only [put, beq_self_eq_true, if_true, List.mem_cons,
          Prod.mk.injEq] at h ⊢
        rcases h with h | h
        · exact .inr h
        · exact .inl (.inr h)
      · simp only [put, beq_iff_eq, heq, if_false, List.mem_cons] at h ⊢
        rcases h with h | h
        · exact .inl (.inl h)
        · exact (ih h).imp_left .inr

theorem nodup_keys_put (key : κ) (value : α) {entries : List (κ × α)}
    (h : (keys entries).Nodup) : (keys (put key value entries)).Nodup := by
  rw [keys_put]
  split
  next => exact h
  next hnew =>
    refine List.nodup_append.2 ⟨h, List.nodup_singleton key, ?_⟩
    intro k hk other hother heq
    rw [heq, List.mem_singleton.1 hother] at hk
    exact hnew hk

theorem put_of_not_mem {key : κ} (value : α) {entries : List (κ × α)}
    (h : key ∉ keys entries) :
    put key value entries = entries ++ [(key, value)] := by
  induction entries with
  | nil => rfl
  | cons entry rest ih =>
      obtain ⟨k, v⟩ := entry
      simp only [keys_cons, List.mem_cons, not_or] at h
      simp [put, Ne.symm h.1, ih h.2]

omit [LawfulBEq κ] in
theorem get?_map {β : Type} (f : α → β) (entries : List (κ × α)) (key : κ) :
    get? (entries.map fun entry => (entry.1, f entry.2)) key =
      (get? entries key).map f := by
  induction entries with
  | nil => rfl
  | cons entry rest ih =>
      by_cases h : (entry.1 == key) = true
      · simp [get?, h]
      · simp [get?, h, ih]

/-- Where every key stands once, an entry is found under its key. -/
theorem get?_of_mem {entries : List (κ × α)}
    (hkeys : (keys entries).Nodup) {key : κ} {value : α}
    (hmem : (key, value) ∈ entries) : get? entries key = some value := by
  induction entries with
  | nil => simp at hmem
  | cons entry rest ih =>
      rw [keys_cons, List.nodup_cons] at hkeys
      rcases List.mem_cons.1 hmem with heq | hrest
      · simp [get?, ← heq]
      · have hne : entry.1 ≠ key := by
          intro heq
          exact hkeys.1 (heq ▸ List.mem_map_of_mem hrest)
        simp [get?, hne, ih hkeys.2 hrest]

theorem mem_of_get? {entries : List (κ × α)} {key : κ} {value : α}
    (h : get? entries key = some value) : (key, value) ∈ entries := by
  induction entries with
  | nil => cases h
  | cons entry rest ih =>
      obtain ⟨k, v⟩ := entry
      by_cases heq : k = key
      · simp only [get?, heq, beq_self_eq_true, if_true,
          Option.some.injEq] at h
        simp [heq, h]
      · simp only [get?, beq_iff_eq, heq, if_false] at h
        exact List.mem_cons_of_mem _ (ih h)

theorem get?_eq_none_iff {entries : List (κ × α)} {key : κ} :
    get? entries key = none ↔ key ∉ keys entries := by
  induction entries with
  | nil => simp [get?]
  | cons entry rest ih =>
      obtain ⟨k, v⟩ := entry
      by_cases heq : k = key
      · simp [get?, heq]
      · simp [get?, heq, ih, Ne.symm heq]

omit [BEq κ] [LawfulBEq κ] in
theorem mem_keys_of_mem {entries : List (κ × α)} {key : κ} {value : α}
    (h : (key, value) ∈ entries) : key ∈ keys entries :=
  List.mem_map.2 ⟨(key, value), h, rfl⟩

theorem exists_get?_of_mem_keys {entries : List (κ × α)} {key : κ}
    (h : key ∈ keys entries) :
    ∃ value, get? entries key = some value := by
  cases hget : get? entries key with
  | none => exact absurd h (get?_eq_none_iff.1 hget)
  | some value => exact ⟨value, rfl⟩

/-- A relation holds under every key if the keys are the same and it holds of
the values under each of them. -/
theorem forall_rel_get?_iff {r : α → α → Prop} {as bs : List (κ × α)} :
    (∀ key, Option.Rel r (get? as key) (get? bs key)) ↔
      (∀ key, key ∈ keys as ↔ key ∈ keys bs) ∧
      ∀ key a b, get? as key = some a → get? bs key = some b → r a b := by
  constructor
  · intro h
    constructor
    · intro key
      have hkey := h key
      rw [← not_iff_not, ← get?_eq_none_iff, ← get?_eq_none_iff]
      generalize get? as key = x, get? bs key = y at hkey
      cases hkey <;> simp
    · intro key a b ha hb
      have hkey := h key
      rw [ha, hb] at hkey
      cases hkey with
      | some hr => exact hr
  · rintro ⟨hkeys, hvalues⟩ key
    cases ha : get? as key with
    | none =>
        rw [get?_eq_none_iff, hkeys] at ha
        rw [get?_eq_none_iff.2 ha]
        exact .none
    | some a =>
        have hmem : key ∈ keys bs := by
          rw [← hkeys]
          exact mem_keys_of_mem (mem_of_get? ha)
        rcases exists_get?_of_mem_keys hmem with ⟨b, hb⟩
        rw [hb]
        exact .some (hvalues key a b ha hb)

/-- What holds of the entries before and of every entry that is put holds of
all the entries after. -/
theorem forall_mem_foldl_put {P : κ → α → Prop} {puts entries : List (κ × α)}
    (hentries : ∀ k v, (k, v) ∈ entries → P k v)
    (hputs : ∀ k v, (k, v) ∈ puts → P k v) :
    ∀ k v, (k, v) ∈ puts.foldl
      (fun entries entry => put entry.1 entry.2 entries) entries →
      P k v := by
  induction puts generalizing entries with
  | nil => exact hentries
  | cons entry rest ih =>
      apply ih
      · intro k v hmem
        rcases mem_of_mem_put hmem with hold | ⟨rfl, rfl⟩
        · exact hentries k v hold
        · exact hputs _ _ (by simp)
      · exact fun k v hmem => hputs k v (List.mem_cons_of_mem entry hmem)

theorem forall_mem_ofList {P : κ → α → Prop} {puts : List (κ × α)}
    (h : ∀ k v, (k, v) ∈ puts → P k v) : ∀ k v, (k, v) ∈ ofList puts → P k v :=
  forall_mem_foldl_put (by simp) h

theorem nodup_keys_ofList (puts : List (κ × α)) :
    (keys (ofList puts)).Nodup := by
  unfold ofList
  have hfold : ∀ entries : List (κ × α), (keys entries).Nodup →
      (keys (puts.foldl (fun entries entry => put entry.1 entry.2 entries)
        entries)).Nodup := by
    induction puts with
    | nil => exact fun _ h => h
    | cons entry rest ih =>
        exact fun _ h => ih _ (nodup_keys_put entry.1 entry.2 h)
  exact hfold [] (by simp)

theorem foldl_put_of_nodup {puts entries : List (κ × α)}
    (h : (keys (entries ++ puts)).Nodup) :
    puts.foldl (fun entries entry => put entry.1 entry.2 entries) entries =
      entries ++ puts := by
  induction puts generalizing entries with
  | nil => simp
  | cons entry rest ih =>
      have hnew : entry.1 ∉ keys entries := by
        simp only [keys, List.map_append, List.map_cons,
          List.nodup_append] at h
        exact fun hmem => h.2.2 _ hmem _ (by simp) rfl
      rw [List.foldl_cons, put_of_not_mem _ hnew, ih (by simpa using h)]
      simp

/-- Entries whose keys are all different are left as they are. -/
theorem ofList_of_nodup {entries : List (κ × α)} (h : (keys entries).Nodup) :
    ofList entries = entries := by
  exact foldl_put_of_nodup (show (keys ([] ++ entries)).Nodup from h)

section Puts

/-- Whether a value is the last that was put under a key. -/
def LastPut (puts : List (κ × α)) (key : κ) (value : α) : Prop :=
  ∃ earlier later, puts = earlier ++ (key, value) :: later ∧ key ∉ keys later

omit [BEq κ] [LawfulBEq κ] in
theorem lastPut_concat_iff {puts : List (κ × α)} {k key : κ} {v value : α} :
    LastPut (puts ++ [(k, v)]) key value ↔
      (k = key ∧ v = value) ∨ (k ≠ key ∧ LastPut puts key value) := by
  constructor
  · rintro ⟨earlier, later, heq, hlater⟩
    rcases List.eq_nil_or_concat later with rfl | ⟨between, last, rfl⟩
    · have hlast := List.append_inj_right' heq rfl
      simp only [List.cons.injEq, Prod.mk.injEq, and_true] at hlast
      exact .inl hlast
    · rw [List.concat_eq_append, ← List.cons_append,
        ← List.append_assoc] at heq
      have hputs := List.append_inj_left' heq rfl
      have hlast := List.append_inj_right' heq rfl
      rw [List.concat_eq_append, ← List.singleton_inj.1 hlast] at hlater
      simp only [keys, List.map_append, List.mem_append, not_or] at hlater
      exact .inr ⟨fun h => hlater.2 (by simp [h]), earlier, between,
        hputs, hlater.1⟩
  · rintro (⟨rfl, rfl⟩ | ⟨hne, earlier, later, rfl, hlater⟩)
    · exact ⟨puts, [], rfl, by simp⟩
    · refine ⟨earlier, later ++ [(k, v)], by simp, ?_⟩
      simp only [keys, List.map_append, List.mem_append, not_or]
      exact ⟨hlater, by simpa using hne.symm⟩

omit [LawfulBEq κ] in
theorem ofList_append (puts more : List (κ × α)) :
    ofList (puts ++ more) =
      more.foldl (fun entries entry => put entry.1 entry.2 entries)
        (ofList puts) :=
  List.foldl_append

omit [LawfulBEq κ] in
theorem ofList_concat (puts : List (κ × α)) (entry : κ × α) :
    ofList (puts ++ [entry]) = put entry.1 entry.2 (ofList puts) :=
  ofList_append puts [entry]

theorem keys_ofList (puts : List (κ × α)) :
    keys (ofList puts) = (keys puts).eraseDups := by
  induction puts using List.reverseRecOn with
  | nil => rfl
  | append_singleton puts entry ih =>
      have hkeys : keys (puts ++ [entry]) = keys puts ++ [entry.1] :=
        List.map_append
      rw [ofList_concat, keys_put, hkeys, List.eraseDups_append, ih]
      by_cases hmem : entry.1 ∈ keys puts <;> simp [List.removeAll,
        List.eraseDups_cons, hmem]

theorem mem_keys_ofList {puts : List (κ × α)} {key : κ} :
    key ∈ keys (ofList puts) ↔ key ∈ keys puts := by
  rw [keys_ofList, List.mem_eraseDups]

/-- What is found under a key is what was put there last. -/
theorem get?_ofList_eq_some_iff {puts : List (κ × α)} {key : κ} {value : α} :
    get? (ofList puts) key = some value ↔ LastPut puts key value := by
  induction puts using List.reverseRecOn with
  | nil => simp [ofList, get?, LastPut]
  | append_singleton puts entry ih =>
      rw [ofList_concat, lastPut_concat_iff, ← ih]
      by_cases heq : entry.1 = key
      · subst heq
        simp
      · simp [get?_put_of_ne _ _ (Ne.symm heq), heq]

theorem get?_ofList_eq_none_iff {puts : List (κ × α)} {key : κ} :
    get? (ofList puts) key = none ↔ key ∉ keys puts := by
  rw [get?_eq_none_iff, mem_keys_ofList]

theorem mem_ofList_iff {puts : List (κ × α)} {key : κ} {value : α} :
    (key, value) ∈ ofList puts ↔ LastPut puts key value := by
  rw [← get?_ofList_eq_some_iff]
  exact ⟨get?_of_mem (nodup_keys_ofList puts), mem_of_get?⟩

/-- As many entries are left as different keys were put. -/
theorem length_ofList [DecidableEq κ] (puts : List (κ × α)) :
    (ofList puts).length = (keys puts).toFinset.card := by
  have hset : (keys puts).toFinset = (keys (ofList puts)).toFinset := by
    ext key
    rw [List.mem_toFinset, List.mem_toFinset, mem_keys_ofList]
  rw [hset, List.toFinset_card_of_nodup (nodup_keys_ofList puts), keys,
    List.length_map]

theorem length_ofList_eq_iff (puts : List (κ × α)) :
    (ofList puts).length = puts.length ↔ (keys puts).Nodup := by
  classical
  have hlength : puts.length = Multiset.card (keys puts : Multiset κ) := by
    rw [Multiset.coe_card, keys, List.length_map]
  rw [length_ofList, hlength, ← Multiset.coe_nodup]
  exact Multiset.toFinset_card_eq_card_iff_nodup

omit [BEq κ] [LawfulBEq κ] in
theorem lastPut_map_iff {β : Type} (f : β → κ × α) {members : List β}
    {key : κ} {value : α} :
    LastPut (members.map f) key value ↔
      ∃ earlier m later, members = earlier ++ m :: later ∧ f m = (key, value) ∧
        ∀ other ∈ later, (f other).1 ≠ key := by
  constructor
  · rintro ⟨_, _, heq, hlater⟩
    rcases List.map_eq_append_iff.1 heq with ⟨earlier, rest, rfl, rfl, hrest⟩
    rcases List.map_eq_cons_iff.1 hrest with ⟨m, later, rfl, hm, rfl⟩
    refine ⟨earlier, m, later, rfl, hm, fun other hmem hkey => hlater ?_⟩
    exact List.mem_map.2 ⟨f other, List.mem_map_of_mem hmem, hkey⟩
  · rintro ⟨earlier, m, later, rfl, hm, hlater⟩
    refine ⟨earlier.map f,
      later.map f, by rw [List.map_append, List.map_cons, hm], ?_⟩
    intro hmem
    rcases List.mem_map.1 hmem with ⟨_, hentry, hkey⟩
    rcases List.mem_map.1 hentry with ⟨other, hother, rfl⟩
    exact hlater other hother hkey

end Puts

end Entries
end IndexAccess
