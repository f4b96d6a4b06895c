import PositionFeed.Channel.Distributor
import PositionFeed.Channel.Outlet

namespace PositionFeed

/-!
# Channels

A channel is a distributor with its outlet.
-/

/-- A distributor with its outlet. -/
structure Channel where
  /-- What decides and counts. -/
  distributor : Distributor
  /-- Where samples are handed. -/
  outlet : Outlet

namespace Channel

/-- Sets a channel up as it is configured. -/
def create (network : Network) (plan : ChannelPlan) (parent : Token)
    (tokens : Tokens) : Except SetupFault (Channel × Tokens × List Event) := do
  let (outlet, tokens, events) ← Outlet.create network plan parent tokens
  .ok (⟨Distributor.begin plan.name plan.effectivePolicy, outlet⟩, tokens,
    events ++ [.notice .channelReady])

/-- What a tick finds to do. -/
def decide (channel : Channel) (cache : Cache) : Decision :=
  channel.distributor.decide cache.latest channel.outlet.hasAudience

/-- Carries out what a tick found to do. -/
def carryOut (network : Network) (now : Int64) (decision : Decision)
    (channel : Channel) : Channel × Except Fault TickOutcome × List Event :=
  match decision with
  | .rest outcome =>
      let (distributor, result, events) :=
        channel.distributor.settleRest outcome
      ({ channel with distributor := distributor }, result, events)
  | .handOff sample =>
      let (outlet, answer, sending) := channel.outlet.send network sample
      let (distributor, result, events) :=
        channel.distributor.settle now sample answer
      (⟨distributor, outlet⟩, result, sending ++ events)

def tick (network : Network) (now : Int64) (cache : Cache)
    (channel : Channel) : Channel × Except Fault TickOutcome × List Event :=
  channel.carryOut network now (channel.decide cache)

/-- Closes the outlet and reports. -/
def finish (tokens : Tokens) (channel : Channel) :
    ChannelReport × Tokens × List Event :=
  let (_, tokens, events) := channel.outlet.close tokens
  (channel.distributor.report, tokens, events)

end Channel

end PositionFeed
