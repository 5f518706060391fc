import Madoka.Account.Serial
import Madoka.Settlement.ExactlyOnce
import Madoka.Settlement.Balance
import Madoka.Bus.AtLeastOnce
import Madoka.Rooms.Dismissal
import Madoka.Rooms.Seats
import Madoka.Rooms.CodeGate
import Madoka.Rooms.Authorised
import Madoka.Rooms.Notifications
import Madoka.Rooms.Serial
import Madoka.Friends.Consent
import Madoka.Repo.Agreement
import Madoka.Settings.Applied
import Madoka.Tokens.Verify
import Madoka.Sessions.Ban
import Madoka.Sessions.Presence
import Madoka.Sessions.Framing
import Madoka.MatchServer.Departed
import Madoka.MatchServer.Duplicates
import Madoka.MatchServer.Fights
import Madoka.MatchServer.Vitals
import Madoka.MatchServer.Wipes
import Madoka.MatchServer.Winners
import Madoka.MatchServer.Deaths
import Madoka.MatchServer.Caps
import Madoka.MatchServer.Armor
import Madoka.MatchServer.Stacks
import Madoka.MatchServer.Order
import Madoka.MatchServer.Rejoins
import Madoka.MatchServer.Latecomers
import Madoka.MatchServer.Reservations
import Madoka.MatchServer.Grace
import Madoka.MatchServer.Progress
import Madoka.MatchServer.Rounds
import Madoka.MatchServer.Identities
import Madoka.MatchServer.Gloo
import Madoka.MatchServer.Flags
import Madoka.MatchServer.Reassembly
import Madoka.MatchServer.Regen
import Madoka.Datagram.Codec
import Madoka.Auth.Polls
import Madoka.Auth.Provisioning
import Madoka.Auth.RateLimit
import Madoka.Auth.Revoked
import Madoka.Auth.SignIn
import Madoka.Protocol.ReplayGuard
import Madoka.Message.Replication
import Madoka.Datagram.Guard
import Madoka.Matchmaker.Service
import Madoka.Matchmaker.Leader
import Madoka.Matchmaker.Placement
import Madoka.Matchmaker.Waiting
import Madoka.Repo.Migrate
import Madoka.Auth.Handoff
import Madoka.Auth.Completions
import Madoka.Account.Wardrobe
import Madoka.Account.Looks
