import ChainAlerter.Model.MdFormat

/-!
# `ChainAlerter.Model.Slack`: the Slack task

`SlackAlerter` of `alerter/src/slack.rs`. After it has opened a session, each round of
`run` receives an alert, formats it and posts it. The monitors put their alerts into
the channel it receives from, which has no bound. Slack itself is outside the model:
an event says how a request ended.
-/

set_option autoImplicit false

namespace ChainAlerter

/-- The fields of `SlackAlerter` that a message is made of. -/
structure SlackAlerter where
  botName : String
  botIcon : String
  channelName : String

/-- `env!("CARGO_PKG_VERSION")`. -/
def CARGO_PKG_VERSION : String := "1.1.1"

/-- The channel name gets a `#`, unless it has one. -/
def SlackAlerter.new (slackBotName slackBotIcon slackChannelName : String) : SlackAlerter :=
  { botName := slackBotName
    botIcon := slackBotIcon
    channelName := "#" ++
      match slackChannelName.toList with
      | '#' :: name => String.ofList name
      | _ => slackChannelName }

/-- `SlackApiChatPostMessageRequest`, the fields that are set. The only block is
one of markdown. -/
structure PostMessageRequest where
  channel : String
  markdown : String
  iconEmoji : String
  username : String
  unfurlLinks : Bool
  deriving DecidableEq, Repr

/-- The request that posts `text` to the channel, under the name of the bot and the version. -/
def SlackAlerter.request (slack : SlackAlerter) (text : String) : PostMessageRequest :=
  { channel := slack.channelName
    markdown := text
    iconEmoji := slack.botIcon
    username := slack.botName ++ "(" ++ CARGO_PKG_VERSION ++ ")"
    unfurlLinks := false }

/-- Where `run` waits: for the session, for an alert, or for the answer to a post. -/
inductive SlackPhase where
  | opening
  | waiting
  | posting
  | returned (err : Error)
  | panicked
  deriving DecidableEq, Repr

/-- The Slack task, and the requests that it has posted, oldest first. -/
structure SlackTask where
  phase : SlackPhase
  requests : List PostMessageRequest
  deriving DecidableEq

/-- What the task waits for: the session, with the error of the connector or of
`auth_test`, an alert, where `none` is a closed stream, or the end of
`chat_post_message`. -/
inductive SlackEvent where
  | session (result : Except Error Unit)
  | recv (alert : Option Alert)
  | posted (result : Except ForeignError Unit)

namespace SlackTask

/-- The task opens its session first. -/
def init : SlackTask := { phase := .opening, requests := [] }

/-- A received alert. A panic of the formatter is one of the task. -/
def recvAlert (env : FormatExternals) (config : FormatConfig) (slack : SlackAlerter)
    (task : SlackTask) (alert : Alert) : SlackTask :=
  match MdFormat.formatAlert env config alert with
  | .error _ => { task with phase := .panicked }
  | .ok text => { phase := .posting, requests := task.requests ++ [slack.request text] }

/-- One step of `run`. -/
def step (env : FormatExternals) (config : FormatConfig) (slack : SlackAlerter) (task : SlackTask)
    (event : SlackEvent) : Option SlackTask :=
  match task.phase, event with
  | .opening, .session (.ok ()) => some { task with phase := .waiting }
  | .opening, .session (.error err) => some { task with phase := .returned err }
  | .waiting, .recv (some alert) => some (task.recvAlert env config slack alert)
  | .waiting, .recv none => some { task with phase := .returned (.app "Slack stream closed") }
  -- A post that failed is logged, and not tried again.
  | .posting, .posted _ => some { task with phase := .waiting }
  | _, _ => none

end SlackTask

end ChainAlerter
