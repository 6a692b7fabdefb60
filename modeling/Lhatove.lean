import Lhatove.Audio.BufferRuns
import Lhatove.Audio.SourceEffects
import Lhatove.Common.B64Encode
import Lhatove.Common.SmallFloats
import Lhatove.Common.StringMap
import Lhatove.Data.Compressor
import Lhatove.Data.HashDigests
import Lhatove.Filesystem.BufferedReads
import Lhatove.Graphics.BufferLayouts
import Lhatove.Graphics.MeshAttributes
import Lhatove.Graphics.MeshFans
import Lhatove.Graphics.MeshMaps
import Lhatove.Graphics.ParticleQuads
import Lhatove.Graphics.SpriteBatchSizes
import Lhatove.Graphics.StateRuns
import Lhatove.Graphics.StreamSections
import Lhatove.Image.PasteRows
import Lhatove.Image.PixelAccess
import Lhatove.Image.Slices
import Lhatove.Lh.Lots
import Lhatove.Lh.Recompile
import Lhatove.Lh.Restart
import Lhatove.Lh.TypeRuns
import Lhatove.Lh.VariantValues
import Lhatove.Lh.WrapperRuns
import Lhatove.Math.BezierCurve
import Lhatove.Math.Convexity
import Lhatove.Math.RandomStates
import Lhatove.Math.Triangulation
import Lhatove.Physics.Contacts
import Lhatove.Physics.WorldRuns
import Lhatove.Lh.CompileWalks
import Lhatove.Opengl.FramebufferRuns
import Lhatove.Filesystem.BufferedWrites
import Lhatove.Font.BMFontRasterizer
import Lhatove.Font.ImageRasterizer
import Lhatove.Graphics.SamplerKeys
import Lhatove.Graphics.TextureViews
import Lhatove.Font.WrapWidths
import Lhatove.Graphics.TextureSlices
import Lhatove.Font.GlyphColors
import Lhatove.Sound.SoundRanges
import Lhatove.Opengl.BufferClears
import Lhatove.Opengl.DrawQuads
import Lhatove.Filesystem.StripSuffix
import Lhatove.Filesystem.FileRead
import Lhatove.Graphics.GlslComments
import Lhatove.Graphics.ReadbackExact
import Lhatove.Opengl.TexStorage
import Lhatove.Joystick.JoystickRuns
import Lhatove.Vulkan.InterfaceRuns
import Lhatove.Sound.DecoderRuns
import Lhatove.Filesystem.SaveDirectory
import Lhatove.Filesystem.MountRoundTrip
import Lhatove.Graphics.SendOutcomes
import Lhatove.Video.Playback
import Lhatove.Physics.CollisionFilters
import Lhatove.Graphics.IndexFills
