import ChainAlerter.Model.Alerter

/-!
# `ChainAlerter.Model.Startup`: what `main` does before its tasks run

The command line of `alerter/src/cli.rs`, and the functions that `main` calls before it
spawns the monitors: `Subspace::network_details` of `subspace.rs`, the network
configuration of `main.rs`, and `SlackSecret::new` of `slack.rs`. `Model.Main` calls them
in the order of the source.

The answers of the node and of the file system are arguments here. An integer of the node
is cut to the width of its field, as `as` does.
-/

set_option autoImplicit false

namespace ChainAlerter

/-! ### The command line -/

/-- The options of the push task. Without a url there is none. -/
structure UptimekumaConfig where
  uptimekumaUrl : Option String := none
  uptimekumaInterval : Nat := Duration.fromSecs 60

/-- The options for Slack, with their defaults. -/
structure SlackConfig where
  slackTeamId : String := "T03LJ85UR5G"
  slackBotName : String
  slackBotIcon : String := "robot_face"
  slackChannelName : String
  slackSecretPath : String := "/slack-secret"

/-- The command line, with the defaults of its options. -/
structure Config where
  rpcUrl : String
  networkConfigPath : String := "/networks.toml"
  uptimekuma : UptimekumaConfig := {}
  stallAndReorg : StallAndReorgConfig :=
    { nonBlockImportThreshold := Duration.fromSecs 60, reorgDepthThreshold := 6 }
  slack : SlackConfig
  slots : SlotsConfig := .default

/-! ### The node -/

/-- A value of the system properties, as `as_u64` and `as_str` see it. -/
inductive JsonValue where
  | number (n : UInt64)
  | string (s : String)
  | other
  deriving DecidableEq, Repr

/-- `as_u64`. -/
def JsonValue.asU64 : JsonValue → Option UInt64
  | .number n => some n
  | _ => none

/-- `as_str`. -/
def JsonValue.asStr : JsonValue → Option String
  | .string s => some s
  | _ => none

/-- A JSON object, by its keys. -/
abbrev SystemProperties := String → Option JsonValue

/-- What the node says about the network. -/
structure NetworkDetails where
  name : String
  ss58Format : UInt16
  tokenSymbol : String
  tokenDecimals : UInt8
  genesisHash : BlockHash
  deriving DecidableEq, Repr

/-- `Option::ok_or`. -/
def okOr {α : Type} (err : Error) : Option α → Except Error α
  | some a => .ok a
  | none => .error err

/-- `network_details`, after its three requests. -/
def networkDetails (name : String) (systemProperties : SystemProperties) (genesisHash : BlockHash) :
    Except Error NetworkDetails := do
  let ss58Format ← okOr (.config "Failed to get Ss58Format")
    ((systemProperties "ss58Format").bind JsonValue.asU64)
  let tokenSymbol ← okOr (.config "Failed to get Token Symbol")
    ((systemProperties "tokenSymbol").bind JsonValue.asStr)
  -- The text of the error is that of the symbol.
  let tokenDecimals ← okOr (.config "Failed to get Token Symbol")
    ((systemProperties "tokenDecimals").bind JsonValue.asU64)
  return { name := name, ss58Format := ss58Format.toUInt16, tokenSymbol := tokenSymbol
           tokenDecimals := tokenDecimals.toUInt8, genesisHash := genesisHash }

/-! ### The network configuration -/

/-- The entry of the network in the configuration file. -/
structure NetworkConfig where
  accounts : List Account
  bootnodes : List Multiaddr
  deriving DecidableEq, Repr

/-- The networks of the file, by their names. -/
abbrev NetworksConfig := String → Option NetworkConfig

/-- Code outside the repository that `main` hands on or calls. `toml` is
`toml::from_str`. The functions on events are those under the default SS58 version that
`main` has set. -/
structure MainExternals where
  env : Externals
  eventEnv : UInt16 → EventExternals
  formatEnv : FormatExternals
  toml : String → Except ForeignError NetworksConfig

/-- `load_networks_config`, from what `fs::read_to_string` returned. -/
def loadNetworksConfig (externals : MainExternals) (file : Except ForeignError String) :
    Except Error NetworksConfig := do
  let config ← file.mapError Error.io
  (externals.toml config).mapError Error.toml

/-- The configuration of the network that the node is on. -/
def networkConfig (networks : NetworksConfig) (details : NetworkDetails) :
    Except Error NetworkConfig :=
  okOr (.config ("Missing network config: " ++ details.name)) (networks details.name)

/-! ### The Slack secret -/

/-- The secret, and the team that it is for. -/
structure SlackSecret where
  token : String
  teamId : String
  deriving DecidableEq, Repr

/-- The first of the two modes that the file of the secret may have. -/
def USER_READ_ONLY : UInt32 := 0o400

/-- The second one. -/
def USER_READ_WRITE : UInt32 := 0o600

/-- The permission bits are those of a file that only its user can read. -/
def isPrivate (mode : UInt32) : Bool :=
  mode &&& 0o777 = USER_READ_ONLY || mode &&& 0o777 = USER_READ_WRITE

/-- The text of the assertion on the permissions. -/
def permissionPanic (path : String) (mode : UInt32) : String :=
  path ++ " must be readable only by the user running this process (" ++
    toString USER_READ_ONLY.toNat ++ " or " ++ toString USER_READ_WRITE.toNat ++
    "), but it is " ++ toString mode.toNat

/-- `char::is_whitespace`: the Unicode property `White_Space`. -/
def isWhitespace (c : Char) : Bool :=
  (0x09 ≤ c.toNat && c.toNat ≤ 0x0d) || c.toNat = 0x20 || c.toNat = 0x85 || c.toNat = 0xa0 ||
    c.toNat = 0x1680 || (0x2000 ≤ c.toNat && c.toNat ≤ 0x200a) || c.toNat = 0x2028 ||
    c.toNat = 0x2029 || c.toNat = 0x202f || c.toNat = 0x205f || c.toNat = 0x3000

/-- `str::trim`. -/
def trim (text : String) : String :=
  String.ofList (((text.toList.dropWhile isWhitespace).reverse.dropWhile isWhitespace).reverse)

/-- `SlackSecret::new`, from the content of the file. -/
def slackSecret (teamId content : String) : Except Error SlackSecret :=
  let secret := trim content
  if secret = "" then .error (.config "Slack Secret cannot be empty")
  else .ok { token := secret, teamId := teamId }

/-- What the tasks are given. -/
def Config.setup (config : Config) (externals : MainExternals) (details : NetworkDetails)
    (network : NetworkConfig) (start : Instant) : Setup :=
  { env := externals.env, eventEnv := externals.eventEnv details.ss58Format
    formatEnv := externals.formatEnv
    stallAndReorg := config.stallAndReorg, slots := config.slots
    format := { rpcUrl := config.rpcUrl, tokenName := details.tokenSymbol
                tokenDecimals := details.tokenDecimals }
    slack := .new config.slack.slackBotName config.slack.slackBotIcon config.slack.slackChannelName
    accounts := network.accounts, bootnodes := network.bootnodes, start := start }

end ChainAlerter
