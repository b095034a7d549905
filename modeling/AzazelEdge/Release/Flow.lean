/-
# A resource names its flow

Admission looks a lease up by its resource and a cooldown up by its flow.  The two agree: of two
tasks that passed `validate_task`, the same resource means the same flow.  For a redirect this
rests on what the source address may be, since the interface may hold a colon.
-/
import AzazelEdge.Lib.Text
import AzazelEdge.Release.Task

namespace AzazelEdge.Release

open AzazelEdge.Lib

variable {alert alert' : Alert} {task task' : ReleaseTask} {ttlSec ttlSec' : ℕ} {now now' : LeaseNow}

theorem key_toList (flow : FlowScope) : ∃ rest,
    flow.key.toList = flow.sourceIp.toList ++ '>' :: rest := by
  refine ⟨flow.destinationIp.toList ++ (":".toList ++
    ((if flow.protocol = "" then "any" else flow.protocol).toList ++
      (":".toList ++ (toString flow.destinationPort).toList))), ?_⟩
  simp only [FlowScope.key, String.toList_append, List.append_assoc]
  rfl

theorem key_ne_empty (flow : FlowScope) : flow.key ≠ "" := by
  intro h
  obtain ⟨rest, hrest⟩ := key_toList flow
  rw [h] at hrest
  simp at hrest

/-- The address a valid flow redirect acts on is dotted. -/
theorem dotted_of_valid (hvalid : validateTask task = .ok ()) (haction : task.action = .redirect)
    (hmechanism : task.mechanism = .nftFlowRedirect) :
    ∀ c ∈ task.sourceIp.toList, IpAddr.Dotted c := by
  obtain ⟨-, -, -, hmech⟩ := validateTask_ok hvalid
  unfold validateMechanism at hmech
  rw [haction, hmechanism] at hmech
  simp only at hmech
  split at hmech
  · cases hmech
  · rename_i hok
    have hfamily : nftFamily task.sourceIp = some "ip" := by
      by_contra hne
      exact hok (Or.inr (Or.inr (Or.inl hne)))
    unfold nftFamily at hfamily
    obtain ⟨address, haddress, hv4⟩ := Option.map_eq_some_iff.mp hfamily
    cases address with
    | v4 octets => exact IpAddr.dotted_of_v4 haddress
    | v6 groups => simp at hv4

theorem not_mem_of_dotted {cs : List Char} (h : ∀ c ∈ cs, IpAddr.Dotted c) : ':' ∉ cs ∧ '>' ∉ cs := by
  constructor <;> intro hc <;> rcases h _ hc with hd | hd <;> revert hd <;> decide

theorem not_mem_of_interface {iface : String} (h : validInterface iface = true) :
    '>' ∉ iface.toList := by
  intro hc
  simp only [validInterface, Bool.and_eq_true, List.all_eq_true] at h
  exact absurd (h.2 _ hc) (by decide)

/-- **Two valid built tasks of one resource are of one flow.** -/
theorem flowKey_of_resourceKey (hb : alert.Built ttlSec now task)
    (hb' : alert'.Built ttlSec' now' task') (hvalid : validateTask task = .ok ())
    (hvalid' : validateTask task' = .ok ()) (h : task.resourceKey = task'.resourceKey) :
    task.flowKey = task'.flowKey := by
  rw [hb.resource, hb'.resource] at h
  rw [hb.flow, hb'.flow]
  have hlist := congrArg String.toList h
  unfold Alert.resourceKey at hlist
  cases hr : alert.restriction with
  | throttle rate burst =>
    cases hr' : alert'.restriction with
    | throttle rate' burst' =>
      rw [hr, hr'] at hlist
      simp only [String.toList_append] at hlist
      exact String.toList_injective (List.append_cancel_left hlist)
    | redirect iface' port' =>
      rw [hr, hr'] at hlist
      simp only [String.toList_append, List.append_assoc] at hlist
      have := congrArg (fun l => l[21]?) hlist
      exact absurd this (by simp)
  | redirect iface port =>
    cases hr' : alert'.restriction with
    | throttle rate' burst' =>
      rw [hr, hr'] at hlist
      simp only [String.toList_append, List.append_assoc] at hlist
      have := congrArg (fun l => l[21]?) hlist
      exact absurd this (by simp)
    | redirect iface' port' =>
      obtain ⟨hiface, haction, hmechanism⟩ := hb.redirect iface port hr
      obtain ⟨hiface', haction', hmechanism'⟩ := hb'.redirect iface' port' hr'
      obtain ⟨hcolon, hangle⟩ := not_mem_of_dotted (dotted_of_valid hvalid haction hmechanism)
      obtain ⟨hcolon', hangle'⟩ := not_mem_of_dotted (dotted_of_valid hvalid' haction' hmechanism')
      rw [hb.source] at hcolon hangle
      rw [hb'.source] at hcolon' hangle'
      obtain ⟨rest, hkey⟩ := key_toList alert.flow
      obtain ⟨rest', hkey'⟩ := key_toList alert'.flow
      rw [hr, hr'] at hlist
      simp only [String.toList_append, List.append_assoc] at hlist
      -- Cut at the first `>`, which neither the interface nor the address holds, then at the
      -- last `:` before it, which the address does not hold.
      have hcut := List.append_cancel_left hlist
      rw [hkey, hkey'] at hcut
      have hcut' : (iface.toList ++ ':' :: alert.flow.sourceIp.toList) ++ '>' :: rest =
          (iface'.toList ++ ':' :: alert'.flow.sourceIp.toList) ++ '>' :: rest' := by
        simpa using hcut
      obtain ⟨hfront, hrest⟩ := append_cons_inj
        (by simp [not_mem_of_interface hiface, hangle])
        (by simp [not_mem_of_interface hiface', hangle']) hcut'
      obtain ⟨-, hsource⟩ := append_cons_inj_last hcolon hcolon' hfront
      refine String.toList_injective ?_
      rw [hkey, hkey', hsource, hrest]

end AzazelEdge.Release
