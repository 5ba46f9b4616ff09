import SessionPool.Router.Configure
import SessionPool.Scenario.OnePool
import SessionPool.Scenario.Routed
import SessionPool.Session.Basic
import SessionPool.Settings.Codec
import SessionPool.Wire.Decode
import SessionPool.Wire.Feed
import SessionPool.Proofs.Arena.Blocks
import SessionPool.Proofs.Arena.Custody
import SessionPool.Proofs.IdleList.Sequence
import SessionPool.Proofs.IdleList.Recency
import SessionPool.Proofs.Pool.View
import SessionPool.Proofs.Pool.Operations
import SessionPool.Proofs.Pool.Usage
import SessionPool.Proofs.Pool.Strict
import SessionPool.Proofs.Pool.Capacity
import SessionPool.Proofs.Pool.Ownership
import SessionPool.Proofs.Pool.Accounts
import SessionPool.Proofs.Pool.Teardown
import SessionPool.Proofs.Pool.Reuse
import SessionPool.Proofs.Pool.Identity
import SessionPool.Proofs.Pool.Closing
import SessionPool.Proofs.Pool.Memory
import SessionPool.Proofs.Pool.Returning
import SessionPool.Proofs.Pool.Failing
import SessionPool.Proofs.Pool.Reassigning
import SessionPool.Proofs.Router.Tables
import SessionPool.Proofs.Router.Traffic
import SessionPool.Proofs.Router.History
import SessionPool.Proofs.Router.Delivery
import SessionPool.Proofs.Router.Frame
import SessionPool.Proofs.Router.Flushing
import SessionPool.Proofs.Router.Configuring
import SessionPool.Proofs.Wire.Acceptance
import SessionPool.Proofs.Wire.Framing
import SessionPool.Proofs.Wire.Demand
import SessionPool.Proofs.Wire.Stream
import SessionPool.Proofs.Wire.Deliveries
import SessionPool.Proofs.Session.Exchange
import SessionPool.Proofs.Session.Calls
import SessionPool.Proofs.Scenario.Named
import SessionPool.Proofs.Scenario.OnePool
import SessionPool.Proofs.Scenario.Routed
import SessionPool.Proofs.Router.Counters
import SessionPool.Proofs.Router.Independence
import SessionPool.Proofs.Session.Opening
import SessionPool.Proofs.Address.Entry
import SessionPool.Proofs.Address.Listing
import SessionPool.Proofs.Wire.Payload
import SessionPool.Proofs.Arena.HighWater
import SessionPool.Proofs.Pool.Blocks
import SessionPool.Proofs.Json.Reading
import SessionPool.Proofs.Json.Printing
import SessionPool.Proofs.Settings.Listing
import SessionPool.Proofs.Settings.RoundTrip
import SessionPool.Proofs.Wire.Reservation
import SessionPool.Proofs.Wire.Consumption
import SessionPool.Proofs.Session.TimeLimit
import SessionPool.Proofs.Router.TimeLimit
