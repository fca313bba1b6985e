import NameAdvisor.Proofs.Network.Sibling
import NameAdvisor.Proofs.Provider.Requests
import NameAdvisor.Proofs.Text.FirstCut

/-!
# Where a local server is probed

The first `/generate` of an endpoint becomes `/tags`, wherever it stands.  For an endpoint that ends in `/api/generate`
this is the end of it exactly if nothing before it holds a `/generate`, be it in the host or in a path before it.  Then
the probe goes to the server that is asked the questions, to the neighbour of the path that they go to.
-/

namespace NameAdvisor.LocalServer

open Text

/-! ## The address of the probe -/

theorem toList_tagsUrl {endpoint : String} {front back : List Char}
    (h : FirstOccurrence "/generate".toList endpoint.toList front ("/generate".toList ++ back)) :
    (tagsUrl endpoint).toList = front ++ "/tags".toList ++ back := by
  have hcontains : contains endpoint "/generate" = true :=
    contains_iff_infix.mpr ⟨front, back, by rw [List.append_assoc]; exact h.append_eq⟩
  rw [tagsUrl, if_pos hcontains, replaceFirst, String.toList_ofList, replaceFirstChars_of_firstOccurrence h]

/-- A `/generate` at the end is the first one if there is none in the base. -/
theorem firstOccurrence_generate {base : List Char} (h : ¬ "/generate".toList <:+: base) :
    FirstOccurrence "/generate".toList (base ++ "/api/generate".toList) (base ++ "/api".toList) "/generate".toList := by
  have hword : '/' ∉ "generate".toList := by decide
  have hpath : FirstOccurrence "/generate".toList ("/api".toList ++ "/generate".toList) "/api".toList "/generate".toList :=
    (firstOccurrence_start "/generate".toList []).behind hword (by decide)
  exact FirstOccurrence.behind (c := '/') hpath hword h

theorem tagsUrl_of_not_infix {base : String} (h : ¬ "/generate".toList <:+: base.toList) :
    tagsUrl (base ++ "/api/generate") = base ++ "/api/tags" := by
  have hfirst : FirstOccurrence "/generate".toList (base ++ "/api/generate").toList (base.toList ++ "/api".toList)
      ("/generate".toList ++ []) := by
    rw [String.toList_append]
    exact firstOccurrence_generate h
  rw [← String.toList_inj, toList_tagsUrl hfirst, String.toList_append, List.append_nil, List.append_assoc]
  rfl

/-- An earlier `/generate` is replaced instead of the one at the end. -/
theorem tagsUrl_of_infix {base : String} (h : "/generate".toList <:+: base.toList) :
    ∃ front back, base = front ++ "/generate" ++ back ∧
      tagsUrl (base ++ "/api/generate") = front ++ "/tags" ++ back ++ "/api/generate" := by
  obtain ⟨front, back, hfirst⟩ := exists_firstOccurrence h
  have hwhole := hfirst.append "/api/generate".toList
  rw [← String.toList_append, List.append_assoc] at hwhole
  refine ⟨String.ofList front, String.ofList back, ?_, ?_⟩
  · rw [← String.toList_inj, ← hfirst.append_eq]
    simp only [String.toList_append, String.toList_ofList, List.append_assoc]
  · rw [← String.toList_inj, toList_tagsUrl hwhole]
    simp only [String.toList_append, String.toList_ofList, List.append_assoc]

/-! ## Probes -/

theorem isName_api : Url.IsName "api".toList :=
  ⟨by decide, List.forall_iff_forall_mem.mp (by decide), by decide⟩

theorem isName_generate : Url.IsName "generate".toList :=
  ⟨by decide, List.forall_iff_forall_mem.mp (by decide), by decide⟩

theorem isName_tags : Url.IsName "tags".toList :=
  ⟨by decide, List.forall_iff_forall_mem.mp (by decide), by decide⟩

theorem sent_probe {s : LocalServer} {request : HttpRequest} (h : s.probeRequest? = some request) :
    s.probe.2.client.sent = s.client.sent ++ [request] := by
  rw [probe, h]
  rfl

/-- Where the questions go to `/api/generate` after the base and the probe to `/api/tags`, the two go to one server, and
to neighbours unless the base starts a query or a fragment. -/
theorem exists_probe {s : LocalServer} {base prompt : String} {question : HttpRequest}
    (hquestions : s.endpoint = base ++ "/api/generate") (hprobe : tagsUrl s.endpoint = base ++ "/api/tags")
    (hsent : (s.complete prompt).2.client.sent = s.client.sent ++ [question]) :
    ∃ probe, s.probe.2.client.sent = s.client.sent ++ [probe] ∧ probe.url.server = question.url.server ∧
      ((∀ c ∈ base.toList, c ≠ '#' ∧ c ≠ '?') → ∃ parent, question.url.path = parent ++ "/generate" ∧
        probe.url = { question.url with path := parent ++ "/tags" }) := by
  obtain ⟨url, hurl, rfl⟩ := Option.map_eq_some_iff.mp (request?_of_sent hsent)
  have hgenerate : (base ++ "/api/generate").toList = base.toList ++ '/' :: ("api".toList ++ '/' :: "generate".toList) := by
    rw [String.toList_append]
    rfl
  have htags : (base ++ "/api/tags").toList = base.toList ++ '/' :: ("api".toList ++ '/' :: "tags".toList) := by
    rw [String.toList_append]
    rfl
  rw [← hquestions] at hgenerate
  rw [← hprobe] at htags
  obtain ⟨url', hurl', hserver, hpath⟩ :=
    Url.exists_sibling isName_api isName_generate isName_tags hgenerate htags hurl
  refine ⟨_, sent_probe (by rw [probeRequest?, hurl']; rfl), hserver, fun hplain => ?_⟩
  obtain ⟨front, hfront, hurl''⟩ := hpath hplain
  refine ⟨String.ofList front, ?_, ?_⟩
  · rw [hfront, String.ofList_append]
    rfl
  · rw [hurl'', String.ofList_append]
    rfl

/-- The probe of an endpoint that ends in `/api/generate` goes to `/api/tags` after the same base exactly if the base
holds no `/generate`; then it goes to the server that is asked the questions, to the neighbour of their path. -/
theorem tagsUrl_generate (base : String) :
    (tagsUrl (base ++ "/api/generate") = base ++ "/api/tags" ↔ ¬ "/generate".toList <:+: base.toList) ∧
      (¬ "/generate".toList <:+: base.toList → ∀ (s : LocalServer) (prompt : String) (question : HttpRequest),
        s.endpoint = base ++ "/api/generate" →
        (s.complete prompt).2.client.sent = s.client.sent ++ [question] →
        ∃ probe, s.probe.2.client.sent = s.client.sent ++ [probe] ∧ probe.url.server = question.url.server ∧
          ((∀ c ∈ base.toList, c ≠ '#' ∧ c ≠ '?') → ∃ parent, question.url.path = parent ++ "/generate" ∧
            probe.url = { question.url with path := parent ++ "/tags" })) := by
  refine ⟨⟨fun heq h => ?_, tagsUrl_of_not_infix⟩, fun h s prompt question hquestions hsent => ?_⟩
  · obtain ⟨front, back, rfl, htags⟩ := tagsUrl_of_infix h
    rw [htags, ← String.toList_inj] at heq
    simp only [String.toList_append, List.append_assoc] at heq
    have hletter : 't' = 'g' := (List.cons.inj (List.cons.inj (List.append_cancel_left heq)).2).1
    exact absurd hletter (by decide)
  · exact exists_probe hquestions (hquestions ▸ tagsUrl_of_not_infix h) hsent

/-- Behind a proxy, both requests go to the path of the proxy. -/
theorem tagsUrl_generate_behind_proxy :
    let base := "http://box:8080/ollama"
    let s : LocalServer := ⟨base ++ "/api/generate", defaultModel, 2000, 500, { network := .dead }⟩
    ¬ "/generate".toList <:+: base.toList ∧ tagsUrl (base ++ "/api/generate") = base ++ "/api/tags" ∧
      ∃ question probe parent, (s.complete "p").2.client.sent = [question] ∧ s.probe.2.client.sent = [probe] ∧
        probe.url.server = question.url.server ∧ question.url.path = parent ++ "/generate" ∧
        probe.url = { question.url with path := parent ++ "/tags" } := by
  intro base s
  have hbase : ¬ "/generate".toList <:+: base.toList := by
    rw [← contains_iff_infix]
    decide +kernel
  have hplain : ∀ c ∈ base.toList, c ≠ '#' ∧ c ≠ '?' := List.forall_iff_forall_mem.mp (by decide +kernel)
  obtain ⟨question, hquestion⟩ := exists_sent (s := s) (by decide +kernel) "p"
  obtain ⟨probe, hprobe, hserver, hpath⟩ := (tagsUrl_generate base).2 hbase s "p" question rfl hquestion
  obtain ⟨parent, hparent, hurl⟩ := hpath hplain
  exact ⟨hbase, (tagsUrl_generate base).1.mpr hbase, question, probe, parent, hquestion, hprobe, hserver, hparent, hurl⟩

/-- A host whose name starts with the word is replaced, so that the probe goes to another host. -/
theorem probe_goes_to_other_host :
    let base := "http://generate.example.com"
    let s : LocalServer := ⟨base ++ "/api/generate", defaultModel, 2000, 500, { network := .dead }⟩
    tagsUrl (base ++ "/api/generate") = "http://tags.example.com/api/generate" ∧
      tagsUrl (base ++ "/api/generate") ≠ base ++ "/api/tags" ∧
      (s.request? "p").map (·.url.host) = some "generate.example.com" ∧
      s.probeRequest?.map (·.url.host) = some "tags.example.com" := by
  intro base s
  refine ⟨?_, ?_, ?_, ?_⟩ <;> decide +kernel

end NameAdvisor.LocalServer
