import Lsvmi.Qdisc.Entries
import Lsvmi.Reasoning.Runs

/-!
# The interface names of the entries

An entry gets the name of its interface from the cache when it is created, and again when the cache
is refreshed periodically.  A name that is missing makes the cache be refreshed as well, but the
entry is created with what the cache had before.
-/

namespace Lsvmi.Qdisc

open Reasoning List Finmap

/-- The kernel's names by interface index. -/
abbrev IfTable := UInt32 → Option Bytes

def IfTable.name (table : IfTable) (ifIndex : UInt32) : Bytes := (table ifIndex).getD []

def Interface.entry (ifa : Interface) : UInt32 × Bytes := (ifa.index, ifa.name)

/-- Whatever `net.Interfaces` returns during the call is the table. -/
def ParseInput.Sees (input : ParseInput) (table : IfTable) : Prop :=
  ∀ n ifas, input.interfaces n = .ok ifas → replay (ifas.map Interface.entry) = table

section

variable {nl : Netlink} {input : ParseInput} {scanNum : Int64} {n : Nat} {data : Bytes}
  {msgs : List Bytes} {info info' : Info} {shared shared' : QdiscStatsShared} {key : QdiscInfoKey}
  {qi qi₀ : QdiscInfo} {table : IfTable} {refreshed : Bool}
  {interfaces : Except String (List Interface)} {refreshTime : Int}

theorem lookup_refresh (shared : QdiscStatsShared) (ifas : List Interface) (timeNow : Int)
    (i : UInt32) :
    (shared.ifIndexToNameCacheRefresh ifas timeNow).ifIndexToNameCache.lookup i =
      (replay (ifas.map Interface.entry) i).or (shared.ifIndexToNameCache.lookup i) := by
  rw [← lookup_foldl_insert, foldl_map]
  rfl

theorem ifName_refresh {ifas : List Interface} (htable : replay (ifas.map Interface.entry) = table)
    (timeNow : Int) (i : UInt32) :
    (shared.ifIndexToNameCacheRefresh ifas timeNow).ifName i = (table i).getD (shared.ifName i) := by
  rw [QdiscStatsShared.ifName, lookup_refresh, htable, QdiscStatsShared.ifName]
  cases table i <;> rfl

theorem findInfo_of_some (hold : info.lookup key = some qi₀)
    (h : findInfo refreshed interfaces refreshTime key info shared = .ok (qi, shared')) :
    shared' = shared ∧
      qi.ifName = if refreshed then shared.ifName key.ifIndex else qi₀.ifName := by
  simp only [findInfo, hold] at h
  cases h
  cases refreshed <;> exact ⟨rfl, rfl⟩

theorem findInfo_of_refreshed
    (h : findInfo true interfaces refreshTime key info shared = .ok (qi, shared')) :
    shared' = shared ∧ qi.ifName = shared.ifName key.ifIndex := by
  cases hold : info.lookup key with
  | some qi₀ => exact findInfo_of_some hold h
  | none =>
    simp only [findInfo, hold, Bool.true_eq_false, and_false, if_false] at h
    cases h
    exact ⟨rfl, rfl⟩

theorem findInfo_of_none (htable : ∀ ifas, interfaces = .ok ifas →
      replay (ifas.map Interface.entry) = table) (hold : info.lookup key = none)
    (h : findInfo false interfaces refreshTime key info shared = .ok (qi, shared')) :
    qi.ifName = shared.ifName key.ifIndex ∧
      (shared.ifName key.ifIndex ≠ [] → shared' = shared) ∧
      (shared.ifName key.ifIndex = [] → ∀ i, shared'.ifName i = (table i).getD (shared.ifName i)) := by
  simp only [findInfo, hold, and_true] at h
  by_cases hmiss : shared.ifName key.ifIndex = []
  · rw [if_pos hmiss] at h
    cases hifas : interfaces with
    | error err =>
      rw [hifas] at h
      cases h
    | ok ifas =>
      rw [hifas] at h
      cases h
      exact ⟨rfl, fun hne => absurd hmiss hne, fun _ => ifName_refresh (htable ifas hifas) refreshTime⟩
  · rw [if_neg hmiss] at h
    cases h
    exact ⟨rfl, fun _ => rfl, fun hnil => absurd hnil hmiss⟩

theorem parsed_ifName (qi : QdiscInfo) (data : Bytes) (assignments : List Assignment) :
    (qi.parsed nl scanNum data assignments).ifName = qi.ifName := by
  show (assignments.foldl QdiscInfo.assign _).ifName = _
  rw [foldl_assign_ifName, assign_ifName, assign_ifName]

theorem parseReplies_ifName_of_refreshed
    (h : parseReplies nl input true scanNum n msgs info shared = some (none, info', shared'))
    (hkey : key ∈ msgs.map (replyKey nl)) (hqi : info'.lookup key = some qi) :
    qi.ifName = shared.ifName key.ifIndex := by
  induction msgs generalizing n info shared with
  | nil => cases hkey
  | cons data msgs ih =>
    obtain ⟨info₁, shared₁, hfirst, hrest⟩ := parseReplies_cons h
    obtain ⟨found, assignments, hfind, -, -, rfl⟩ := parseReply_ok hfirst
    obtain ⟨rfl, hname⟩ := findInfo_of_refreshed hfind
    by_cases hlater : key ∈ msgs.map (replyKey nl)
    · exact ih hrest hlater
    · have hfirstKey : key = replyKey nl data := (mem_cons.mp hkey).resolve_right hlater
      rw [(parseReplies_loopOk hrest).other key hlater, hfirstKey, lookup_insert] at hqi
      cases hqi
      rw [parsed_ifName, hname, hfirstKey]

/-- Before the first reply with this key there is one with a new key whose interface has no name in
the cache, so that the cache is refreshed. -/
def MissedBefore (nl : Netlink) (msgs : List Bytes) (info : Info) (shared : QdiscStatsShared)
    (key : QdiscInfoKey) : Prop :=
  ∃ data ∈ msgs.takeWhile (replyKey nl · ≠ key),
    replyKey nl data ∉ info ∧ shared.ifName (replyKey nl data).ifIndex = []

instance (nl : Netlink) (msgs : List Bytes) (info : Info) (shared : QdiscStatsShared)
    (key : QdiscInfoKey) : Decidable (MissedBefore nl msgs info shared key) :=
  inferInstanceAs (Decidable (∃ data ∈ _, _))

def createdName (nl : Netlink) (table : IfTable) (msgs : List Bytes) (info : Info)
    (shared : QdiscStatsShared) (key : QdiscInfoKey) : Bytes :=
  if MissedBefore nl msgs info shared key then (table key.ifIndex).getD (shared.ifName key.ifIndex)
  else shared.ifName key.ifIndex

theorem missedBefore_insert
    (hkeep : replyKey nl data ∈ info ∨ shared.ifName (replyKey nl data).ifIndex ≠ [])
    (hne : replyKey nl data ≠ key) (qi : QdiscInfo) :
    MissedBefore nl msgs (info.insert (replyKey nl data) qi) shared key ↔
      MissedBefore nl (data :: msgs) info shared key := by
  have hcounts : ∀ d, replyKey nl d ∉ info → shared.ifName (replyKey nl d).ifIndex = [] →
      replyKey nl d ≠ replyKey nl data := by
    intro d hnew hnil heq
    rw [heq] at hnew hnil
    exact hkeep.elim hnew fun hname => hname hnil
  unfold MissedBefore
  rw [takeWhile_cons_of_pos (by simpa using hne)]
  simp only [mem_insert, not_or]
  constructor
  · rintro ⟨d, hd, ⟨-, hnew⟩, hnil⟩
    exact ⟨d, mem_cons_of_mem data hd, hnew, hnil⟩
  · rintro ⟨d, hd, hnew, hnil⟩
    have hother := hcounts d hnew hnil
    refine ⟨d, (mem_cons.mp hd).resolve_left fun heq => hother (by rw [heq]), ?_, hnil⟩
    exact ⟨hother, hnew⟩

theorem missedBefore_cons_of_miss (hnew : replyKey nl data ∉ info)
    (hmiss : shared.ifName (replyKey nl data).ifIndex = []) (hne : replyKey nl data ≠ key) :
    MissedBefore nl (data :: msgs) info shared key := by
  unfold MissedBefore
  rw [takeWhile_cons_of_pos (by simpa using hne)]
  exact ⟨data, mem_cons_self, hnew, hmiss⟩

theorem not_missedBefore_self : ¬ MissedBefore nl (data :: msgs) info shared (replyKey nl data) := by
  unfold MissedBefore
  rw [takeWhile_cons_of_neg (by simp)]
  simp

theorem parseReplies_ifName (hsees : input.Sees table)
    (h : parseReplies nl input false scanNum n msgs info shared = some (none, info', shared'))
    (hqi : info'.lookup key = some qi) :
    qi.ifName =
      ((info.lookup key).map QdiscInfo.ifName).getD (createdName nl table msgs info shared key) := by
  induction msgs generalizing n info shared with
  | nil =>
    cases h
    rw [hqi]
    rfl
  | cons data msgs ih =>
    obtain ⟨info₁, shared₁, hfirst, hrest⟩ := parseReplies_cons h
    obtain ⟨found, assignments, hfind, -, -, rfl⟩ := parseReply_ok hfirst
    have hname := ih hrest
    by_cases hkey : replyKey nl data = key
    · subst hkey
      rw [lookup_insert] at hname
      cases hold : info.lookup (replyKey nl data) with
      | some qi₀ =>
        rw [hname]
        exact (parsed_ifName _ _ _).trans (findInfo_of_some hold hfind).2
      | none =>
        rw [hname]
        refine (parsed_ifName _ _ _).trans ((findInfo_of_none (hsees n) hold hfind).1.trans ?_)
        exact (if_neg not_missedBefore_self).symm
    · rw [lookup_insert_of_ne _ (Ne.symm hkey)] at hname
      rw [hname]
      congr 1
      -- the other entries see only what the reply does to the cache
      cases hold : info.lookup (replyKey nl data) with
      | some qi₀ =>
        obtain ⟨rfl, -⟩ := findInfo_of_some hold hfind
        exact if_congr (missedBefore_insert (.inl (mem_of_lookup hold)) hkey _) rfl rfl
      | none =>
        obtain ⟨-, hkeep, hmiss⟩ := findInfo_of_none (hsees n) hold hfind
        by_cases hnil : shared.ifName (replyKey nl data).ifIndex = []
        · have hnew : replyKey nl data ∉ info := lookup_eq_none.mp hold
          unfold createdName
          rw [if_pos (missedBefore_cons_of_miss hnew hnil hkey), hmiss hnil]
          cases table key.ifIndex <;> simp
        · obtain rfl := hkeep hnil
          exact if_congr (missedBefore_insert (.inr hnil) hkey _) rfl rfl

def NameFits (nl : Netlink) (table : IfTable) (input : ParseInput) (msgs : List Bytes) (info : Info)
    (shared : QdiscStatsShared) (key : QdiscInfoKey) : Prop :=
  if key ∈ msgs.map (replyKey nl) then
    if shared.refreshDue input.timeNow then
      -- the cache forgets no name
      (table key.ifIndex).isSome ∨ shared.ifName key.ifIndex = []
    else
      match info.lookup key with
      | some qi => qi.ifName = table.name key.ifIndex
      | none => shared.ifName key.ifIndex = table.name key.ifIndex ∨
          MissedBefore nl msgs info shared key ∧ (table key.ifIndex).isSome
  else
    ∀ qi, info.lookup key = some qi → qi.ifName = table.name key.ifIndex

theorem getD_eq_name_iff {i : UInt32} {name : Bytes} :
    (table i).getD name = table.name i ↔ (table i).isSome ∨ name = [] := by
  unfold IfTable.name
  cases table i <;> simp

theorem createdName_eq_iff :
    createdName nl table msgs info shared key = table.name key.ifIndex ↔
      shared.ifName key.ifIndex = table.name key.ifIndex ∨
        MissedBefore nl msgs info shared key ∧ (table key.ifIndex).isSome := by
  unfold createdName
  by_cases hmissed : MissedBefore nl msgs info shared key
  · rw [if_pos hmissed, getD_eq_name_iff]
    simp only [hmissed, true_and]
    unfold IfTable.name
    cases table key.ifIndex <;> simp
  · rw [if_neg hmissed]
    simp only [hmissed, false_and, or_false]

theorem periodicRefresh_ifName {shared₁ : QdiscStatsShared} (hsees : input.Sees table)
    (hdue : shared.refreshDue input.timeNow) (h : periodicRefresh input shared = .ok shared₁)
    (i : UInt32) : shared₁.ifName i = (table i).getD (shared.ifName i) := by
  rw [periodicRefresh, if_pos hdue] at h
  cases hifas : input.interfaces 0 with
  | error err =>
    rw [hifas] at h
    cases h
  | ok ifas =>
    rw [hifas] at h
    cases h
    exact ifName_refresh (hsees 0 ifas hifas) _ i

theorem parse_ifName_iff (hsees : input.Sees table) (hmsgs : input.replies = .ok msgs)
    (h : parse nl input info shared = some (none, info', shared'))
    (hqi : info'.lookup key = some qi) :
    qi.ifName = table.name key.ifIndex ↔ NameFits nl table input msgs info shared key := by
  obtain ⟨msgs', shared₀, info₁, shared₁, hmsgs', hrefresh, hloop, rfl, -⟩ := parse_ok h
  obtain rfl : msgs = msgs' := by
    rw [hmsgs] at hmsgs'
    exact Except.ok.inj hmsgs'
  have hqi₁ := removeOutOfScope_lookup hqi
  unfold NameFits
  by_cases hkey : key ∈ msgs.map (replyKey nl)
  · rw [if_pos hkey]
    cases hdue : shared.refreshDue input.timeNow with
    | true =>
      rw [hdue] at hloop
      rw [if_pos rfl, parseReplies_ifName_of_refreshed hloop hkey hqi₁,
        periodicRefresh_ifName hsees hdue hrefresh, getD_eq_name_iff]
    | false =>
      rw [hdue] at hloop
      have hsame : shared₀ = shared := by
        rw [periodicRefresh, hdue] at hrefresh
        exact (Except.ok.inj hrefresh).symm
      subst hsame
      rw [if_neg Bool.false_ne_true, parseReplies_ifName hsees hloop hqi₁]
      cases info.lookup key with
      | some qi₀ => exact Iff.rfl
      | none => exact createdName_eq_iff
  · -- a leftover entry is as it was
    rw [if_neg hkey]
    have hold : info.lookup key = some qi := by
      rw [← (parseReplies_loopOk hloop).other key hkey, hqi₁]
    rw [hold]
    simp only [Option.some.injEq, forall_eq']

def QdiscState.entry (s : QdiscState) (i : Nat) (key : QdiscInfoKey) : Option QdiscInfo :=
  (s.objects[i]?).bind fun info => info.lookup key

/-- Two objects are parsed one after the other while the kernel's table does not change: an entry of
both has the table's name in both if and only if it did fit before each parse. -/
theorem both_names_iff {s s₁ s₂ : QdiscState} {i j : Nat} {input₁ input₂ : ParseInput}
    {msgs₁ msgs₂ : List Bytes} {info₁ info₂ : Info} {qi₁ qi₂ : QdiscInfo} (hij : i ≠ j)
    (hi : s.objects[i]? = some info₁) (hj : s.objects[j]? = some info₂)
    (hmsgs₁ : input₁.replies = .ok msgs₁) (hmsgs₂ : input₂.replies = .ok msgs₂)
    (hsees₁ : input₁.Sees table) (hsees₂ : input₂.Sees table)
    (h₁ : s.call nl (.parse i input₁) = some (none, s₁))
    (h₂ : s₁.call nl (.parse j input₂) = some (none, s₂))
    (hqi₁ : s₂.entry i key = some qi₁) (hqi₂ : s₂.entry j key = some qi₂) :
    qi₁.ifName = qi₂.ifName ∧ qi₂.ifName = table.name key.ifIndex ↔
      NameFits nl table input₁ msgs₁ info₁ s.shared key ∧
      NameFits nl table input₂ msgs₂ info₂ s₁.shared key := by
  obtain ⟨info₁', hparse₁, hobjects₁⟩ := call_parse hi h₁
  have hj₁ : s₁.objects[j]? = some info₂ := by
    rw [hobjects₁, getElem?_set_ne hij, hj]
  obtain ⟨info₂', hparse₂, hobjects₂⟩ := call_parse hj₁ h₂
  have hentry₁ : info₁'.lookup key = some qi₁ := by
    rw [QdiscState.entry, hobjects₂, getElem?_set_ne hij.symm, hobjects₁,
      getElem?_set_self (List.getElem?_eq_some_iff.mp hi).1] at hqi₁
    exact hqi₁
  have hentry₂ : info₂'.lookup key = some qi₂ := by
    rw [QdiscState.entry, hobjects₂, getElem?_set_self (List.getElem?_eq_some_iff.mp hj₁).1] at hqi₂
    exact hqi₂
  rw [← parse_ifName_iff hsees₁ hmsgs₁ hparse₁ hentry₁,
    ← parse_ifName_iff hsees₂ hmsgs₂ hparse₂ hentry₂]
  constructor
  · rintro ⟨hsame, hname⟩
    exact ⟨hsame.trans hname, hname⟩
  · rintro ⟨hname₁, hname₂⟩
    exact ⟨hname₁.trans hname₂.symm, hname₂⟩

end

def loopback : Interface := ⟨1, utf8 "lo"⟩

def ethernet : Interface := ⟨2, utf8 "eth1"⟩

def loopbackReply : Bytes := replyOf 1 0 0 (utf8 "noqueue")

def ethernetReply : Bytes := replyOf 2 0 0 (utf8 "mq")

def onlyLoopback (timeNow : Int) : ParseInput := inputOf [loopbackReply] timeNow [loopback]

def withEthernet (timeNow : Int) : ParseInput :=
  inputOf [loopbackReply, ethernetReply] timeNow [loopback, ethernet]

theorem sees_inputOf (msgs : List Bytes) (timeNow : Int) (ifas : List Interface) :
    (inputOf msgs timeNow ifas).Sees (replay (ifas.map Interface.entry)) := by
  intro n ifas' h
  cases h
  rfl

theorem both_names_loopback : ∃ s s₁ s₂ qi₁ qi₂,
    Run (QdiscSteps kindOnly) .new [.parse 0 (onlyLoopback 0), .clone 0] s ∧
    s.call kindOnly (.parse 0 (onlyLoopback 60000000000)) = some (none, s₁) ∧
    s₁.call kindOnly (.parse 1 (onlyLoopback 65000000000)) = some (none, s₂) ∧
    s₂.entry 0 ⟨1, 0⟩ = some qi₁ ∧ s₂.entry 1 ⟨1, 0⟩ = some qi₂ ∧
    qi₁.ifName = qi₂.ifName ∧ qi₂.ifName = utf8 "lo" := by
  have hrun : ∃ s s₁ s₂ info₁ info₂ qi₁ qi₂,
      Run (QdiscSteps kindOnly) .new [.parse 0 (onlyLoopback 0), .clone 0] s ∧
      s.objects[0]? = some info₁ ∧ s.objects[1]? = some info₂ ∧
      s.call kindOnly (.parse 0 (onlyLoopback 60000000000)) = some (none, s₁) ∧
      s₁.call kindOnly (.parse 1 (onlyLoopback 65000000000)) = some (none, s₂) ∧
      s₂.entry 0 ⟨1, 0⟩ = some qi₁ ∧ s₂.entry 1 ⟨1, 0⟩ = some qi₂ ∧
      NameFits kindOnly (replay ([loopback].map Interface.entry)) (onlyLoopback 60000000000)
        [loopbackReply] info₁ s.shared ⟨1, 0⟩ ∧
      NameFits kindOnly (replay ([loopback].map Interface.entry)) (onlyLoopback 65000000000)
        [loopbackReply] info₂ s₁.shared ⟨1, 0⟩ :=
    ⟨_, _, _, _, _, _, _, .cons ⟨none, rfl⟩ (.cons ⟨none, rfl⟩ .start), rfl, rfl, rfl, rfl, rfl,
      rfl, .inl rfl, rfl⟩
  obtain ⟨s, s₁, s₂, info₁, info₂, qi₁, qi₂, hs, hi, hj, h₁, h₂, hqi₁, hqi₂, hfits⟩ := hrun
  exact ⟨s, s₁, s₂, qi₁, qi₂, hs, h₁, h₂, hqi₁, hqi₂, (both_names_iff (by decide) hi hj rfl rfl
    (sees_inputOf _ _ _) (sees_inputOf _ _ _) h₁ h₂ hqi₁ hqi₂).mpr hfits⟩

theorem new_interface_has_two_names : ∃ s s₁ s₂ qi₁ qi₂, Run (QdiscSteps kindOnly) .new
      [.parse 0 (onlyLoopback 0), .clone 0, .parse 1 (onlyLoopback 5000000000)] s ∧
    (withEthernet 10000000000).Sees (replay ([loopback, ethernet].map Interface.entry)) ∧
    (withEthernet 15000000000).Sees (replay ([loopback, ethernet].map Interface.entry)) ∧
    s.call kindOnly (.parse 0 (withEthernet 10000000000)) = some (none, s₁) ∧
    s₁.call kindOnly (.parse 1 (withEthernet 15000000000)) = some (none, s₂) ∧
    s₂.entry 0 ⟨2, 0⟩ = some qi₁ ∧ s₂.entry 1 ⟨2, 0⟩ = some qi₂ ∧
    qi₁.ifName = [] ∧ qi₂.ifName = utf8 "eth1" ∧ qi₁.ifName ≠ qi₂.ifName := by
  refine ⟨_, _, _, _, _, .cons ⟨none, rfl⟩ (.cons ⟨none, rfl⟩ (.cons ⟨none, rfl⟩ .start)),
    sees_inputOf _ _ _, sees_inputOf _ _ _, rfl, rfl, rfl, rfl, rfl, rfl, ?_⟩
  decide

end Lsvmi.Qdisc
