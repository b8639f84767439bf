import FilterChain.Proofs.Run.Trace
import FilterChain.Proofs.Service.Answers
import FilterChain.Proofs.Step.Printing

/-!
# Answers of the service

A request that names a specification, or gets the default one, is answered from a run of it on the
registry: with the error of the run, or with its result and the records of a traced run if they
were asked for. What the request logs is the entries of that run between entries of its own, which
show the specification as it was written.
-/

namespace FilterChain

def Reply.withoutTrace : Reply → Reply
  | .done response => .done { response with trace? := none }
  | .refused kind message => .refused kind message

def Registry.runEntries (registry : Registry) (spec : String) (value : Value) (trace : Bool) :
    List Log.Entry :=
  if trace then (registry.applyTraced spec value).entries else (registry.apply spec value).entries

namespace Service

variable {service : Service} {requestId filter : String} {request : ApplyRequest} {chain : Chain}
  {value result : Value} {e : ChainError}

theorem run_of_outcome_eq_error (hparse : Chain.parse filter = .ok chain)
    (h : (service.registry.apply filter value).outcome = .error e) (trace : Bool) :
    service.run chain value trace =
      (.error e, service.registry.runEntries filter value trace) := by
  have hspec := Chain.parse_eq_ok_iff.mp hparse
  rw [Registry.apply_of_parseSpec_ok hspec] at h
  cases trace with
  | false =>
    simp [run, Registry.runEntries, Registry.apply_of_parseSpec_ok hspec, h, Except.map]
  | true =>
    have houtcome : (Run.traced service.registry 0 chain.steps value).outcome = .error e :=
      Run.outcome_traced_eq_error_iff.mpr h
    simp [run, Registry.runEntries, Registry.applyTraced_of_parseSpec_ok hspec, houtcome,
      Except.map]

theorem run_of_outcome_eq_ok (hparse : Chain.parse filter = .ok chain)
    (h : (service.registry.apply filter value).outcome = .ok result) (trace : Bool) :
    ∃ trace?, service.run chain value trace =
        (.ok (result, trace?), service.registry.runEntries filter value trace) ∧
      trace?.isSome = trace ∧
      ∀ records, trace? = some records →
        (service.registry.applyTraced filter value).outcome = .ok (result, records) := by
  have hspec := Chain.parse_eq_ok_iff.mp hparse
  rw [Registry.apply_of_parseSpec_ok hspec] at h
  cases trace with
  | false =>
    refine ⟨none, ?_, rfl, fun _ hnone => by cases hnone⟩
    simp [run, Registry.runEntries, Registry.apply_of_parseSpec_ok hspec, h, Except.map]
  | true =>
    have htraced := Run.map_fst_outcome_traced service.registry 0 chain.steps value
    rw [h] at htraced
    cases houtcome : (Run.traced service.registry 0 chain.steps value).outcome with
    | error other =>
      rw [houtcome] at htraced
      cases htraced
    | ok found =>
      obtain ⟨last, records⟩ := found
      rw [houtcome] at htraced
      obtain rfl := Except.ok.inj htraced
      rw [Registry.applyTraced_of_parseSpec_ok hspec]
      refine ⟨some records, ?_, rfl, ?_⟩
      · simp [run, Registry.runEntries, Registry.applyTraced_of_parseSpec_ok hspec, houtcome,
          Except.map]
      · intro others hothers
        obtain rfl := Option.some.inj hothers
        exact houtcome

theorem apply_of_no_filter (h : request.filter?.or service.defaultFilter? = none) :
    service.apply requestId request =
      (.refused "bad_request" "no filter given and no default filter configured", []) := by
  rw [apply, h]

theorem apply_of_malformed (hfilter : request.filter?.or service.defaultFilter? = some filter)
    (h : Step.parseSpec filter = .error e) :
    service.apply requestId request = (.refused e.kind e.message, []) := by
  simp only [apply, hfilter, Chain.parse_of_parseSpec_error h]

/-- The first log entry of a request shows the specification itself, since printing a chain undoes
reading it. -/
theorem startEntry_of_parse (h : Chain.parse filter = .ok chain) :
    startEntry chain = .info s!"apply: {filter} ({chain.steps.length} steps)" := by
  rw [startEntry, Chain.text_of_parse h]
  rfl

theorem doneEntry_of_parse (h : Chain.parse filter = .ok chain) (result : Value) :
    doneEntry chain result = .success s!"apply: {filter} -> {result.toText}" := by
  rw [doneEntry, Chain.text_of_parse h]

theorem apply_of_outcome_eq_error
    (hfilter : request.filter?.or service.defaultFilter? = some filter)
    (hparse : Chain.parse filter = .ok chain)
    (h : (service.registry.apply filter request.value).outcome = .error e) :
    service.apply requestId request =
      (.refused e.kind e.message,
        .info s!"apply: {filter} ({chain.steps.length} steps)" ::
          service.registry.runEntries filter request.value request.trace) := by
  simp only [apply, hfilter, hparse, run_of_outcome_eq_error hparse h, startEntry_of_parse hparse]

theorem apply_of_outcome_eq_ok (requestId : String)
    (hfilter : request.filter?.or service.defaultFilter? = some filter)
    (hparse : Chain.parse filter = .ok chain)
    (h : (service.registry.apply filter request.value).outcome = .ok result) :
    ∃ trace?, service.apply requestId request =
        (.done ⟨requestId, "ok", filter, result, trace?⟩,
          .info s!"apply: {filter} ({chain.steps.length} steps)" ::
            service.registry.runEntries filter request.value request.trace ++
              [.success s!"apply: {filter} -> {result.toText}"]) ∧
      trace?.isSome = request.trace ∧
      ∀ records, trace? = some records →
        (service.registry.applyTraced filter request.value).outcome = .ok (result, records) := by
  obtain ⟨trace?, hrun, htrace, hrecords⟩ := run_of_outcome_eq_ok hparse h request.trace
  refine ⟨trace?, ?_, htrace, hrecords⟩
  simp only [apply, hfilter, hparse, hrun, startEntry_of_parse hparse, doneEntry_of_parse hparse]
  rfl

theorem fst_apply_of_outcome_eq_error
    (hfilter : request.filter?.or service.defaultFilter? = some filter)
    (h : (service.registry.apply filter request.value).outcome = .error e) :
    (service.apply requestId request).1 = .refused e.kind e.message := by
  cases hspec : Step.parseSpec filter with
  | error fault =>
    rw [Registry.apply_of_parseSpec_error hspec] at h
    obtain rfl := Except.error.inj h
    rw [apply_of_malformed hfilter hspec]
  | ok steps =>
    obtain ⟨chain, hparse, -⟩ := Chain.exists_parse_eq_ok hspec
    rw [apply_of_outcome_eq_error hfilter hparse h]

theorem fst_apply_of_outcome_eq_ok (requestId : String)
    (hfilter : request.filter?.or service.defaultFilter? = some filter)
    (h : (service.registry.apply filter request.value).outcome = .ok result) :
    ∃ trace?, (service.apply requestId request).1 =
        .done (.ofResult requestId filter result trace?) ∧
      trace?.isSome = request.trace ∧
      ∀ records, trace? = some records →
        (service.registry.applyTraced filter request.value).outcome = .ok (result, records) := by
  cases hspec : Step.parseSpec filter with
  | error fault =>
    rw [Registry.apply_of_parseSpec_error hspec] at h
    cases h
  | ok steps =>
    obtain ⟨chain, hparse, -⟩ := Chain.exists_parse_eq_ok hspec
    obtain ⟨trace?, happly, htrace, hrecords⟩ := apply_of_outcome_eq_ok requestId hfilter hparse h
    exact ⟨trace?, congrArg Prod.fst happly, htrace, hrecords⟩

theorem snd_apply_of_parseSpec_eq_ok {steps : List Step}
    (hfilter : request.filter?.or service.defaultFilter? = some filter)
    (h : Step.parseSpec filter = .ok steps) :
    (service.apply requestId request).2 =
      .info s!"apply: {filter} ({steps.length} steps)" ::
        service.registry.runEntries filter request.value request.trace ++
        match (service.registry.apply filter request.value).outcome with
        | .ok result => [.success s!"apply: {filter} -> {result.toText}"]
        | .error _ => [] := by
  obtain ⟨chain, hparse, rfl⟩ := Chain.exists_parse_eq_ok h
  cases houtcome : (service.registry.apply filter request.value).outcome with
  | error e => rw [apply_of_outcome_eq_error hfilter hparse houtcome, List.append_nil]
  | ok result =>
    obtain ⟨trace?, happly, -, -⟩ := apply_of_outcome_eq_ok requestId hfilter hparse houtcome
    rw [happly]

/-- Records that are asked for come on top of the reply, which is the same without them. -/
theorem withoutTrace_apply (service : Service) (requestId : String) (request : ApplyRequest) :
    (service.apply requestId { request with trace := true }).1.withoutTrace =
      (service.apply requestId { request with trace := false }).1 := by
  cases hfilter : request.filter?.or service.defaultFilter? with
  | none => simp only [apply, hfilter, Reply.withoutTrace]
  | some filter =>
    cases hparse : Chain.parse filter with
    | error e => simp only [apply, hfilter, hparse, Reply.withoutTrace]
    | ok chain =>
      cases houtcome : (service.registry.apply filter request.value).outcome with
      | error e =>
        simp only [apply, hfilter, hparse, run_of_outcome_eq_error hparse houtcome,
          Reply.withoutTrace]
      | ok result =>
        obtain ⟨traced?, htraced, _, _⟩ := run_of_outcome_eq_ok hparse houtcome true
        obtain ⟨plain?, hplain, hnone, _⟩ := run_of_outcome_eq_ok hparse houtcome false
        obtain rfl := Option.isNone_iff_eq_none.mp (Option.isSome_eq_false_iff.mp hnone)
        simp only [apply, hfilter, hparse, htraced, hplain, Reply.withoutTrace,
          ApplyResponse.ofResult]

theorem addsTrace_withoutTrace (requestId : String) (reply : Reply) :
    (Server.replyResponse requestId reply).AddsTrace
      (Server.replyResponse requestId reply.withoutTrace) := by
  cases reply with
  | refused kind message =>
    exact ⟨400, _, _, HttpResponse.carries_json 400 _, HttpResponse.carries_json 400 _, rfl,
      fun _ _ => rfl⟩
  | done response =>
    refine ⟨200, _, _, HttpResponse.carries_json 200 _, HttpResponse.carries_json 200 _, rfl,
      fun name hname => ?_⟩
    obtain ⟨_, _, _, _, trace?⟩ := response
    cases trace? with
    | none => rfl
    | some records =>
      have hother :
          [("trace", Value.list (records.map StepRecord.toValue))].lookup name = none := by
        rw [List.lookup_cons, beq_eq_false_iff_ne.mpr hname]
        rfl
      simp only [ApplyResponse.toValue, Value.field?, List.lookup_append, List.lookup_nil, hother,
        Option.or_none]

/-- Without a specification a request is refused and logs nothing. Otherwise it is answered with the
outcome of the specification on the registry, and with a trace, that of the traced run, if and only
if it asks for one, which changes nothing else of the answer. A malformed specification logs
nothing, and any other logs itself as it was written, then the entries of its run, then its result
if there is one. So does a server that is asked over HTTP, whose subscribers get what is logged. -/
theorem apply_answers_as_registry (service : Service) (requestId : String)
    (request : ApplyRequest) :
    let answer := fun request => Server.replyResponse requestId (service.apply requestId request).1
    let logged := (service.apply requestId request).2
    (request.filter?.or service.defaultFilter? = none →
      (answer request).Refuses requestId "bad_request"
          "no filter given and no default filter configured" ∧ logged = []) ∧
    (∀ filter, request.filter?.or service.defaultFilter? = some filter →
      (∀ e, (service.registry.apply filter request.value).outcome = .error e →
        (answer request).Refuses requestId e.kind e.message) ∧
      (∀ result, (service.registry.apply filter request.value).outcome = .ok result →
        ∃ trace?, (answer request).Grants requestId filter result trace? ∧
          trace?.isSome = request.trace ∧
          ∀ records, trace? = some records →
            (service.registry.applyTraced filter request.value).outcome = .ok (result, records)) ∧
      (∀ e, Step.parseSpec filter = .error e → logged = []) ∧
      ∀ steps, Step.parseSpec filter = .ok steps →
        logged =
          ⟨.info, s!"apply: {filter} ({steps.length} steps)", 0⟩ ::
            service.registry.runEntries filter request.value request.trace ++
            match (service.registry.apply filter request.value).outcome with
            | .ok result => [⟨.success, s!"apply: {filter} -> {result.toText}", 0⟩]
            | .error _ => []) ∧
    (answer { request with trace := true }).AddsTrace (answer { request with trace := false }) ∧
    ∀ (server : Server) (http : HttpRequest), server.service = service → http.Asks request →
      (server.handle requestId http).1 = answer request ∧
      (server.handle requestId http).2.service = service ∧
      ∀ subscriber, server.channel.Serves subscriber →
        (server.handle requestId http).2.channel.waiting subscriber =
          server.channel.waiting subscriber ++ logged := by
  intro answer logged
  refine ⟨fun hnone => ?_, fun filter hfilter => ⟨fun e h => ?_, fun result h => ?_,
    fun e h => ?_, fun steps h => snd_apply_of_parseSpec_eq_ok hfilter h⟩, ?_, ?_⟩
  · dsimp only [answer, logged]
    rw [apply_of_no_filter hnone]
    exact ⟨Server.refuses_replyResponse _ _ _, rfl⟩
  · dsimp only [answer]
    rw [fst_apply_of_outcome_eq_error hfilter h]
    exact Server.refuses_replyResponse _ _ _
  · obtain ⟨trace?, hreply, htrace, hrecords⟩ := fst_apply_of_outcome_eq_ok requestId hfilter h
    refine ⟨trace?, ?_, htrace, hrecords⟩
    dsimp only [answer]
    rw [hreply]
    exact Server.grants_replyResponse _ _ _ _
  · dsimp only [logged]
    rw [apply_of_malformed hfilter h]
  · dsimp only [answer]
    rw [← withoutTrace_apply]
    exact addsTrace_withoutTrace requestId _
  · rintro server http rfl hasks
    have hhandle := server.handle_of_asks requestId hasks
    refine ⟨congrArg Prod.fst hhandle, ?_, fun _ hserves =>
      server.waiting_handle_of_asks requestId hasks hserves⟩
    rw [hhandle]

/-- A traced request that gets the default specification, as it comes in over HTTP, one for an
operation that does not exist, and one with a malformed specification. -/
theorem apply_answers_as_registry_default :
    let service := Service.mk Registry.builtin (some "trim")
    let http : HttpRequest :=
      ⟨"POST", "/api/apply?x=1", [("Content-Type", "application/json")],
        "\x7b\"trace\":true,\"value\":\" a \"\x7d"⟩
    (∃ trace?, ((Server.start service).handle "7" http).1.Grants "7" "trim" (.text "a") trace? ∧
      trace?.isSome = true) ∧
    (Server.replyResponse "7" (service.apply "7" ⟨some "x", .null, false⟩).1).Refuses "7"
      "operation_not_found" "filter \"x\" does not exist" ∧
    (service.apply "7" ⟨some "", .text " a ", false⟩).2 = [] := by
  intro service http
  refine ⟨?_, ?_, ?_⟩
  · obtain ⟨-, hruns, -, hserver⟩ :=
      apply_answers_as_registry service "7" ⟨none, .text " a ", true⟩
    obtain ⟨trace?, hgrants, htrace, -⟩ := (hruns "trim" rfl).2.1 (.text "a") rfl
    refine ⟨trace?, ?_, htrace⟩
    have hasks : http.Asks ⟨none, .text " a ", true⟩ :=
      ⟨rfl, by decide, ⟨_, rfl, by decide⟩, by decide +kernel⟩
    rw [(hserver (.start service) http rfl hasks).1]
    exact hgrants
  · exact ((apply_answers_as_registry service "7" ⟨some "x", .null, false⟩).2.1 "x" rfl).1
      (.operationNotFound "x") rfl
  · exact ((apply_answers_as_registry service "7" ⟨some "", .text " a ", false⟩).2.1 "" rfl).2.2.1
      _ rfl

end Service

end FilterChain
