import Grunt.Foundation.Address
import Grunt.Foundation.Calendar
import Grunt.Foundation.Gregorian
import Grunt.Foundation.Rfc3339
import Grunt.Foundation.Interleaving
import Grunt.Foundation.Table
import Grunt.Foundation.Transactions
import Grunt.Foundation.Unicode
import Grunt.Client.Careful
import Grunt.Client.Message
import Grunt.Foundation.EventStream
import Grunt.Server.Steps
import Grunt.Server.Broadcasts
import Grunt.Server.Browsing
import Grunt.Server.ChatPage
import Grunt.Server.Deadlock
import Grunt.Server.Dividers
import Grunt.Server.Lifecycle
import Grunt.Server.Listening
import Grunt.Server.Names
import Grunt.Server.LiveAndPage
import Grunt.Server.Resuming
import Grunt.Server.Framing
import Grunt.Server.Privacy
import Grunt.Server.Credentials
import Grunt.Server.FirstAdmin
import Grunt.Server.EmoteFiles
import Grunt.Server.EmoteScan
import Grunt.Server.EmoteTokens
import Grunt.Server.Frames
import Grunt.Server.KeyRegistry
import Grunt.Storage.Pool
import Grunt.Storage.Registration
import Grunt.Storage.Lasting
import Grunt.Server.Avatars
import Grunt.Server.AvatarURLs
import Grunt.Server.ColdStart
import Grunt.Server.SizeChecks
import Grunt.Server.Stretches
import Grunt.Server.Syncing
import Grunt.Storage.Passwords
import Grunt.Server.Posting
import Grunt.Server.Terminal
import Grunt.Server.Scrollback
import Grunt.Server.Commands
import Grunt.Server.Descent
import Grunt.Server.Pictures
import Grunt.Server.Transcript
import Grunt.Server.EmoteWatch
import Grunt.Server.Fragments
