import WebClient.Client

/-!
# One exchange, case by case

An exchange ends at the connection, at the request, at the head of the response or
with its body. Each case is an equation, so that nothing else has to look at how
an exchange is put together.
-/

set_option autoImplicit false

namespace WebClient.Client

variable {σ τ : Type} {network : Network σ} (client : Client σ) {target : Target}
  (request : Request) {method : Method} (intake : Intake τ) (state : τ) {outside : Outside σ}

/-! ## The connection -/

theorem exchange_of_connect_error {failure : Failure}
    (refused : Connection.connect network client.session.config target client.outside =
      (outside, .error failure)) :
    client.exchange network target request intake state =
      ({ client.report [.detail] with outside }, state, .error failure) := by
  have same : Connection.connect network (client.report [.detail]).session.config target
      (client.report [.detail]).outside = (outside, .error failure) := refused
  simp only [exchange, same]

theorem exchange_of_connect {connection : Connection}
    (opened : Connection.connect network client.session.config target client.outside =
      (outside, .ok connection)) :
    client.exchange network target request intake state =
      let later := converse network { client.report [.detail] with outside } target request
        intake state
      ({ later.1 with outside := later.1.outside.hangUp network }, later.2.1, later.2.2) := by
  have same : Connection.connect network (client.report [.detail]).session.config target
      (client.report [.detail]).outside = (outside, .ok connection) := opened
  simp only [exchange, same]

/-! ## The request -/

theorem converse_of_send_error {failure : Failure}
    (stopped : request.send client.session.config.lineEnding (Outside.channel network)
      (client.ask target request).outside = (outside, .error failure)) :
    client.converse network target request intake state =
      ({ client.ask target request with outside }, state, .error failure) := by
  have same : request.send (client.ask target request).session.config.lineEnding
      (Outside.channel network) (client.ask target request).outside =
        (outside, .error failure) := stopped
  simp only [converse, same]

theorem converse_of_send {count : Nat}
    (sent : request.send client.session.config.lineEnding (Outside.channel network)
      (client.ask target request).outside = (outside, .ok count)) :
    client.converse network target request intake state =
      listen network { client.ask target request with outside } target request.method intake
        state := by
  have same : request.send (client.ask target request).session.config.lineEnding
      (Outside.channel network) (client.ask target request).outside =
        (outside, .ok count) := sent
  simp only [converse, same]

/-! ## The response -/

theorem listen_of_error {failure : Failure} {after : Reader}
    (failed : (Reader.start (client.outside.incoming network) client.session.config.timeout
      target.url).readResponse method = (.error failure, after)) :
    client.listen network target method intake state =
      (client.report after.journal, state, .error failure) := by
  simp only [listen, failed]

theorem listen_of_response {response : Response} {after : Reader}
    (read : (Reader.start (client.outside.incoming network) client.session.config.timeout
      target.url).readResponse method = (.ok response, after)) :
    client.listen network target method intake state =
      let body := after.readContent response (Extent.select method response.code response.fields)
        intake state
      let client := (((client.report after.journal).receive target response).report
        (Extent.reports method response.code response.fields)).take after body.2.1
      let concluded := client.conclude response body.1
      (concluded.1, body.2.2, concluded.2) := by
  simp only [listen, read]

/-- A response whose body is read to its end is given with that body. -/
theorem listen_of_complete {response : Response} {reader after : Reader} {content : Content}
    {later : τ}
    (read : (Reader.start (client.outside.incoming network) client.session.config.timeout
      target.url).readResponse method = (.ok response, reader))
    (body : reader.readContent response (Extent.select method response.code response.fields)
      intake state = (⟨content, none⟩, after, later)) :
    client.listen network target method intake state =
      ((((client.report reader.journal).receive target response).report
        (Extent.reports method response.code response.fields)).take reader after, later,
        .ok { response with content }) := by
  rw [listen_of_response client intake state read, body]
  rfl

end WebClient.Client
